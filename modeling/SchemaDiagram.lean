import SchemaDiagram.Main
import SchemaDiagram.Surroundings
import SchemaDiagram.SystemTree
import SchemaDiagram.StoreRequest
import SchemaDiagram.Session
import SchemaDiagram.EditorEvent
import SchemaDiagram.Proofs.Declarations
import SchemaDiagram.Proofs.ReferenceMarks
import SchemaDiagram.Proofs.ReferencePasses
import SchemaDiagram.Proofs.DeclaredTables
import SchemaDiagram.Proofs.FieldMarks
import SchemaDiagram.Proofs.RelationshipList
import SchemaDiagram.Proofs.ForeignKeyClauses
import SchemaDiagram.Proofs.HistoryLog
import SchemaDiagram.Proofs.LayoutCoverage
import SchemaDiagram.Proofs.EditorCoherence
import SchemaDiagram.Proofs.EditorReach
import SchemaDiagram.Proofs.GestureCommit
import SchemaDiagram.Proofs.StoredDiagram
import SchemaDiagram.Proofs.RequestOutcome
import SchemaDiagram.Proofs.Autosave
import SchemaDiagram.Proofs.Reopening
import SchemaDiagram.Proofs.ReplacedBlocks
import SchemaDiagram.Proofs.UndoStacks
import SchemaDiagram.Proofs.UndoRedo
import SchemaDiagram.Proofs.TextSlices
import SchemaDiagram.Proofs.TokenStream
import SchemaDiagram.Proofs.BlockGrammar
import SchemaDiagram.Proofs.RenderedBlocks
import SchemaDiagram.Proofs.StoreIndependence
import SchemaDiagram.Proofs.UnreadableAutosave
import SchemaDiagram.Proofs.TableDependencies
import SchemaDiagram.Proofs.DeclarationOrder
import SchemaDiagram.Proofs.AppendedSource
import SchemaDiagram.Proofs.ForeignKeyLines
import SchemaDiagram.Proofs.DragLocks
import SchemaDiagram.Proofs.QueuedText
import SchemaDiagram.Proofs.DirectoryFiles
import SchemaDiagram.Proofs.FileStoreReplies
import SchemaDiagram.Proofs.TokenTiling
import SchemaDiagram.Proofs.GroupReaders
import SchemaDiagram.Proofs.BracketGroups
import SchemaDiagram.Proofs.FailedRequests
import SchemaDiagram.Proofs.TrimmedText
import SchemaDiagram.Proofs.DeclaredType
import SchemaDiagram.Proofs.RepeatedResolving
import SchemaDiagram.Proofs.LineBreaks
import SchemaDiagram.Proofs.GridPlacement
import SchemaDiagram.Proofs.ColumnLayout
import SchemaDiagram.Proofs.GestureBatch
