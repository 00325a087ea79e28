import Crossref.Artifact.Reader
import Crossref.CommandLine.Command
import Crossref.Config.Assignment
import Crossref.Config.Layer
import Crossref.Config.Load
import Crossref.Config.Placeholder
import Crossref.Config.Settings
import Crossref.Cursor
import Crossref.Digest
import Crossref.Lifecycle
import Crossref.Main
import Crossref.Path
import Crossref.Proofs.Artifact.Accepted
import Crossref.Proofs.Artifact.Brackets
import Crossref.Proofs.Artifact.Closed
import Crossref.Proofs.Artifact.Innermost
import Crossref.Proofs.Artifact.Numbering
import Crossref.Proofs.Artifact.Ordinals
import Crossref.Proofs.Config.Layering
import Crossref.Proofs.Cursor.SinglePass
import Crossref.Proofs.Index.Answering
import Crossref.Proofs.Index.Lookup
import Crossref.Proofs.Index.Protocol
import Crossref.Proofs.Index.Searching
import Crossref.Proofs.Update.Accounts
import Crossref.Proofs.Update.Again
import Crossref.Proofs.Update.Consistency
import Crossref.Proofs.Update.Failures
import Crossref.Proofs.Update.Orders
import Crossref.Proofs.Update.Ownership
import Crossref.Proofs.Update.Parameters
import Crossref.Proofs.Update.Rebuild
import Crossref.Proofs.Update.References
import Crossref.Proofs.Update.UpToDate
import Crossref.Proofs.Workspace.Maintenance
import Crossref.Proofs.Workspace.Resolving
import Crossref.Proofs.Workspace.StableIds
import Crossref.Proofs.Workspace.Transactions
import Crossref.Resolver
import Crossref.Session
import Crossref.Store.Maintenance
import Crossref.Store.Query
import Crossref.Store.Write
import Crossref.Text.Blank
import Crossref.Text.Line
import Crossref.Text.Lowercase
import Crossref.Text.Numeral
import Crossref.Text.Utf8
import Crossref.Text.WordChar
import Crossref.Update.Merge
import Crossref.Yaml.Block
import Crossref.Yaml.Directive
import Crossref.Yaml.Document
import Crossref.Yaml.Lexer
import Crossref.Yaml.Node
import Crossref.Yaml.Plain
import Crossref.Yaml.Tag
