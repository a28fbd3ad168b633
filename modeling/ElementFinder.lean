import ElementFinder.Main
import ElementFinder.Proofs.Live.Naming
import ElementFinder.Proofs.Snapshot.Links
import ElementFinder.Proofs.Live.Copy
import ElementFinder.Proofs.Live.Numbering
import ElementFinder.Proofs.Live.View
import ElementFinder.Proofs.Live.Answer
import ElementFinder.Proofs.Chain.Meaning
import ElementFinder.Proofs.Attributes.Alike
import ElementFinder.Proofs.Resolution.Rank
import ElementFinder.Proofs.Resolution.Search
import ElementFinder.Proofs.Resolution.Reconcile
import ElementFinder.Proofs.XPath.Selected
import ElementFinder.Proofs.Resolution.Order
import ElementFinder.Proofs.Live.Holding
import ElementFinder.Proofs.Live.Refinement
import ElementFinder.Proofs.Resolution.Exact
import ElementFinder.Proofs.Predicate.Comparison
import ElementFinder.Proofs.Predicate.Regular
import ElementFinder.Proofs.Predicate.RoundTrip
import ElementFinder.Proofs.Chain.RoundTrip
import ElementFinder.Proofs.Resolution.Child
import ElementFinder.Proofs.Resolution.Modes
import ElementFinder.Proofs.Resolution.Parent
import ElementFinder.Proofs.Resolution.First
import ElementFinder.Proofs.Resolution.Sibling
import ElementFinder.Proofs.Snapshot.Document
import ElementFinder.Proofs.Chain.Plain
import ElementFinder.Proofs.XPath.PlainPath
import ElementFinder.Proofs.XPath.Nested
import ElementFinder.Proofs.Snapshot.Checked
import ElementFinder.Proofs.Snapshot.Judging
import ElementFinder.Proofs.Resolution.Failures
import ElementFinder.Proofs.Live.Changing
import ElementFinder.Proofs.Resolution.ChainPath
import ElementFinder.Proofs.Resolution.Interrupted
import ElementFinder.Proofs.Snapshot.Built
import ElementFinder.Proofs.Snapshot.PathKeys
import ElementFinder.Proofs.Live.FaithfulCopy
import ElementFinder.Proofs.Predicate.TypeText
import ElementFinder.Proofs.Chain.Conformity
import ElementFinder.Proofs.XPath.Present
import ElementFinder.Proofs.Snapshot.Matches
import ElementFinder.Proofs.Snapshot.Labels
import ElementFinder.Proofs.Resolution.Spelling
import ElementFinder.Proofs.Predicate.Like
import ElementFinder.Proofs.Snapshot.Shown
import ElementFinder.Proofs.Text.LowerCase
import ElementFinder.Proofs.Predicate.Caseless
import ElementFinder.Proofs.Predicate.Matching
import ElementFinder.Proofs.Locator.Template
import ElementFinder.Proofs.Snapshot.Ancestors
import ElementFinder.Proofs.Snapshot.Order
