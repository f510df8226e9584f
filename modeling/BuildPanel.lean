import BuildPanel.Main
import BuildPanel.Proofs.Settings.Snapshot
import BuildPanel.Proofs.Output.Faithful
import BuildPanel.Proofs.Panel.Exclusion
import BuildPanel.Proofs.Panel.Serialized
import BuildPanel.Proofs.Relay.Account
import BuildPanel.Proofs.Relay.Delivery
import BuildPanel.Proofs.Relay.Attentive
import BuildPanel.Proofs.Panel.Outcome
import BuildPanel.Proofs.Declaration.Grammar
import BuildPanel.Proofs.Declaration.Search
import BuildPanel.Proofs.Declaration.Scanned
import BuildPanel.Proofs.Declaration.Segments
import BuildPanel.Proofs.Panel.LastWrite
import BuildPanel.Proofs.Panel.Listing
import BuildPanel.Proofs.Message
import BuildPanel.Proofs.Options.Order
import BuildPanel.Proofs.Page.Inputs
import BuildPanel.Proofs.Invocation
import BuildPanel.Proofs.Panel.Answers
import BuildPanel.Proofs.Panel.Milestones
import BuildPanel.Proofs.Panel.Agreement
import BuildPanel.Proofs.BuildDirectory.Ensuring
import BuildPanel.Proofs.Panel.Showing
import BuildPanel.Proofs.BuildDirectory.Cleaning
import BuildPanel.Proofs.Declaration.Composition
import BuildPanel.Proofs.Page.ReadBack
import BuildPanel.Proofs.Page.Markup
import BuildPanel.Proofs.Declaration.Defined
import BuildPanel.Proofs.Address.Grammar
import BuildPanel.Proofs.Address.Alphabet
import BuildPanel.Proofs.Address.Socket
import BuildPanel.Proofs.CommandLine.Binding
import BuildPanel.Proofs.FileSystem.Canonical
import BuildPanel.Proofs.CommandLine.Root
