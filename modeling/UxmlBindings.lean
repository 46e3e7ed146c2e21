import UxmlBindings.Main
import UxmlBindings.Proofs.Binding.Sifting
import UxmlBindings.Proofs.Binding.Account
import UxmlBindings.Proofs.Binding.MemberNames
import UxmlBindings.Proofs.Files.Endings
import UxmlBindings.Proofs.Files.Places
import UxmlBindings.Proofs.Markup.Description
import UxmlBindings.Proofs.Markup.Linear
import UxmlBindings.Proofs.Markup.WrittenAttributes
import UxmlBindings.Proofs.Markup.WrittenTag
import UxmlBindings.Proofs.Markup.Writing
import UxmlBindings.Proofs.Settings.Entries
import UxmlBindings.Proofs.Settings.Reading
import UxmlBindings.Proofs.Workspace.Actions
import UxmlBindings.Proofs.Workspace.Batch
import UxmlBindings.Proofs.Workspace.Intact
import UxmlBindings.Proofs.Workspace.Overwriting
import UxmlBindings.Proofs.Workspace.Steps
import UxmlBindings.Proofs.Workspace.Courses
import UxmlBindings.Proofs.Workspace.Written
import UxmlBindings.Proofs.Workspace.Registered
import UxmlBindings.Proofs.Workspace.Synced
import UxmlBindings.Proofs.Workspace.Stranded
import UxmlBindings.Proofs.Binding.Rejection
import UxmlBindings.Proofs.Code.Levels
import UxmlBindings.Proofs.Code.LineBreaks
import UxmlBindings.Proofs.Binding.UnbrokenNames
import UxmlBindings.Proofs.Binding.CodeLines
import UxmlBindings.Proofs.Binding.Lookups
import UxmlBindings.Proofs.Settings.Reopening
import UxmlBindings.Proofs.Files.Pieces
import UxmlBindings.Proofs.Files.Edits
import UxmlBindings.Proofs.Files.Locality
import UxmlBindings.Proofs.Files.Lookups
import UxmlBindings.Proofs.Workspace.Tended
import UxmlBindings.Proofs.Workspace.Effects
import UxmlBindings.Proofs.Workspace.Independent
import UxmlBindings.Proofs.Binding.Halves
import UxmlBindings.Proofs.Binding.ClassNames
import UxmlBindings.Proofs.Binding.Declarations
import UxmlBindings.Proofs.Workspace.Outputs
import UxmlBindings.Proofs.Workspace.Forgetting
import UxmlBindings.Proofs.Workspace.Refused
import UxmlBindings.Proofs.Files.Repeats
import UxmlBindings.Proofs.Workspace.Repeated
import UxmlBindings.Proofs.Files.Walks
import UxmlBindings.Proofs.Workspace.Clearing
import UxmlBindings.Proofs.Text.Letters
import UxmlBindings.Proofs.Binding.SharedFields
import UxmlBindings.Proofs.Binding.MemberIdentifiers
import UxmlBindings.Proofs.Binding.ComponentNames
import UxmlBindings.Proofs.Code.LineTexts
import UxmlBindings.Proofs.Code.UnbrokenLines
import UxmlBindings.Proofs.Code.Literals
import UxmlBindings.Proofs.Code.Names
import UxmlBindings.Proofs.Code.Lexemes
import UxmlBindings.Proofs.Code.Grouping
import UxmlBindings.Proofs.Code.Indentation
import UxmlBindings.Proofs.Settings.Excerpts
import UxmlBindings.Proofs.Settings.Assignments
import UxmlBindings.Proofs.Markup.Traversal
import UxmlBindings.Proofs.Workspace.Accesses
import UxmlBindings.Proofs.Workspace.TypeSources
