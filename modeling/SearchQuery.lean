import SearchQuery.Main
import SearchQuery.Token.Cursor
import SearchQuery.Proofs.Token.Partition
import SearchQuery.Proofs.Token.Alone
import SearchQuery.Proofs.Token.Classes
import SearchQuery.Proofs.Token.Joined
import SearchQuery.Proofs.Token.Faults
import SearchQuery.Proofs.Token.Cursor
import SearchQuery.Proofs.Accepted
import SearchQuery.Proofs.Tree.Leaves
import SearchQuery.Proofs.Tree.Places
import SearchQuery.Proofs.Tree.Shape
import SearchQuery.Proofs.Tree.Scoping
import SearchQuery.Proofs.Tree.Nesting
import SearchQuery.Proofs.Connective.Agreement
import SearchQuery.Proofs.Connective.Independence
import SearchQuery.Proofs.Rendering
import SearchQuery.Proofs.Spelling.Queries
import SearchQuery.Proofs.Single.FieldSpan
import SearchQuery.Proofs.Single.Parenthesized
import SearchQuery.Proofs.Mirror.Groups
import SearchQuery.Proofs.Restricted.Alternatives
import SearchQuery.Proofs.Restricted.Acceptance
import SearchQuery.Proofs.Restricted.Inclusion
import SearchQuery.Proofs.Reading.Committed
import SearchQuery.Proofs.Speculation
import SearchQuery.Proofs.Speculation.Trials
import SearchQuery.Proofs.Spacing
import SearchQuery.Proofs.Restated.Keywords
import SearchQuery.Proofs.Completion
import SearchQuery.Proofs.Completion.Levels
import SearchQuery.Proofs.Proximity
import SearchQuery.Proofs.Progress
import SearchQuery.Proofs.Caret.Columns
import SearchQuery.Proofs.Faults
import SearchQuery.Proofs.Configuration.Precedence
import SearchQuery.Proofs.Command.Effects
