import BuildPanel.Html
import BuildPanel.Options

/-!
The configuration page: one self-contained document with a checkbox for every option, the state of
the build directory, four buttons and a pane for output. Its script posts the checkboxes to the
other endpoints and shows what they answer.

Names, descriptions and the path of the build directory are inserted as text; all else is fixed.
-/

namespace BuildPanel

structure BuildStatus where
  present : Bool
  path : String
  deriving DecidableEq, Repr

namespace Page

open Html

def lines (ls : List String) : String :=
  String.join (ls.map (· ++ "\n"))

/-- What stands before the build directory: title, style and heading. -/
def head : String :=
  lines [
    "<!DOCTYPE html>",
    "<html lang=\"en\">",
    "<head>",
    "<meta charset=\"utf-8\">",
    "<title>CMake Configuration</title>",
    "<style>",
    "body \x7b font-family: sans-serif; margin: 2em; \x7d",
    "table \x7b border-collapse: collapse; \x7d",
    "td, th \x7b padding: 4px 12px; text-align: left; border-bottom: 1px solid #ddd; \x7d",
    "code \x7b font-size: 0.95em; \x7d",
    ".status-missing \x7b color: #b00; \x7d",
    ".actions button \x7b margin-right: 8px; \x7d",
    "#output \x7b background: #111; color: #eee; padding: 1em; max-height: 40em; overflow: auto; white-space: pre-wrap; \x7d",
    "</style>",
    "</head>",
    "<body>",
    "<h1>CMake Configuration</h1>"]

/-- The page's script: it reads the checkboxes back and talks to the endpoints. -/
def script : String :=
  lines [
    "<script>",
    "function collectOptions() \x7b",
    "  const options = \x7b\x7d;",
    "  document.querySelectorAll('input.cmake-option').forEach(function (box) \x7b",
    "    options[box.dataset.name] = \x7b description: box.dataset.description, value: box.checked \x7d;",
    "  \x7d);",
    "  return options;",
    "\x7d",
    "",
    "function show(text) \x7b",
    "  document.getElementById('output').textContent = text;",
    "\x7d",
    "",
    "async function postJson(path, body) \x7b",
    "  const init = \x7b method: 'POST' \x7d;",
    "  if (body !== undefined) \x7b",
    "    init.headers = \x7b 'Content-Type': 'application/json' \x7d;",
    "    init.body = JSON.stringify(body);",
    "  \x7d",
    "  const res = await fetch(path, init);",
    "  return res.json();",
    "\x7d",
    "",
    "async function saveOptions() \x7b",
    "  const result = await postJson('/save', collectOptions());",
    "  show(result.status === 'success' ? 'Options saved.' : 'Save failed.');",
    "\x7d",
    "",
    "async function applyOptions() \x7b",
    "  show('Configuring...\\n');",
    "  const result = await postJson('/apply', collectOptions());",
    "  show(result.output + '\\n[' + result.status + ']');",
    "\x7d",
    "",
    "async function cleanBuild() \x7b",
    "  const result = await postJson('/clean');",
    "  show(result.message);",
    "\x7d",
    "",
    "async function runBuild() \x7b",
    "  show('');",
    "  const pane = document.getElementById('output');",
    "  const res = await fetch('/build', \x7b method: 'POST' \x7d);",
    "  const reader = res.body.getReader();",
    "  const decoder = new TextDecoder();",
    "  for (;;) \x7b",
    "    const \x7b done, value \x7d = await reader.read();",
    "    if (done) break;",
    "    pane.textContent += decoder.decode(value, \x7b stream: true \x7d);",
    "    pane.scrollTop = pane.scrollHeight;",
    "  \x7d",
    "\x7d",
    "</script>"]

def actions : String :=
  "<p class=\"actions\">" ++
  "<button onclick=\"saveOptions()\">Save</button>" ++
  "<button onclick=\"applyOptions()\">Apply (configure)</button>" ++
  "<button onclick=\"cleanBuild()\">Clean</button>" ++
  "<button onclick=\"runBuild()\">Build</button></p>\n" ++
  "<pre id=\"output\"></pre>\n"

def tail : String :=
  "</body>\n</html>\n"

def directory (status : BuildStatus) : List Piece :=
  [.markup "<p>Build directory: <code>", .inserted status.path, .markup "</code> ",
    .markup (if status.present then "<span class=\"status-ok\">(exists)</span>"
      else "<span class=\"status-missing\">(missing)</span>"),
    .markup "</p>\n"]

def row (name : String) (entry : OptionEntry) : List Piece :=
  [.markup "<tr><td><code>", .inserted name, .markup "</code></td><td>",
    .inserted entry.description,
    .markup "</td><td><input type=\"checkbox\" class=\"cmake-option\" data-name=\"",
    .inserted name, .markup "\" data-description=\"", .inserted entry.description, .markup "\"",
    .markup (if entry.value then " checked" else ""), .markup "></td></tr>\n"]

/-- The option table, or a note that there is nothing to choose. -/
def table (options : OptionSet) : List Piece :=
  match options.toList with
  | [] => [.markup "<p>No <code>option(...)</code> declarations found.</p>\n"]
  | members =>
    .markup "<table>\n<tr><th>Option</th><th>Description</th><th>Enabled</th></tr>\n" ::
      members.flatMap (fun m => row m.1 m.2) ++ [.markup "</table>\n"]

def pieces (options : OptionSet) (status : BuildStatus) : List Piece :=
  .markup head :: directory status ++ table options ++
    [.markup actions, .markup script, .markup tail]

def render (options : OptionSet) (status : BuildStatus) : String :=
  Html.write (pieces options status)

end Page

end BuildPanel
