import SourceRecovery.Deck.Run
import SourceRecovery.Main
import SourceRecovery.Pdb.Writer
import SourceRecovery.Pe.Writer
import SourceRecovery.Proofs.ByteFields
import SourceRecovery.Proofs.Sequences
import SourceRecovery.Proofs.TableLayout
import SourceRecovery.Proofs.DeclaredFaults
import SourceRecovery.Proofs.BitConsumption
import SourceRecovery.Proofs.CappedInflation
import SourceRecovery.Proofs.HeapContents
import SourceRecovery.Proofs.RootLayout
import SourceRecovery.Proofs.RoundTrip
import SourceRecovery.Proofs.DocumentIsolation
import SourceRecovery.Proofs.RowTiling
import SourceRecovery.Proofs.EntryIsolation
import SourceRecovery.Proofs.ImageLayout
import SourceRecovery.Proofs.EmbeddedExtraction
import SourceRecovery.Proofs.Containment
import SourceRecovery.Proofs.PathLookup
import SourceRecovery.Proofs.WriteEffect
import SourceRecovery.Proofs.EventGroups
import SourceRecovery.Proofs.BuiltinInputs
import SourceRecovery.Proofs.TreeWrites
import SourceRecovery.Proofs.LinkFreeWrites
import SourceRecovery.Proofs.TreeRuns
import SourceRecovery.Proofs.WriteRuns
import SourceRecovery.Proofs.IndependentWrites
import SourceRecovery.Proofs.RepeatedWrites
import SourceRecovery.Proofs.InputReports
import SourceRecovery.Proofs.ListedDocuments
import SourceRecovery.Proofs.FileTrees
import SourceRecovery.Proofs.InputSearch
import SourceRecovery.Proofs.LazyDiscovery
import SourceRecovery.Proofs.FrontEnds
import SourceRecovery.Proofs.DeckProgress
import SourceRecovery.Proofs.DeckEndings
import SourceRecovery.Proofs.CommandAccounts
import SourceRecovery.Proofs.ShelfTools
import SourceRecovery.Proofs.StreamFronts
import SourceRecovery.Proofs.SourceBlobs
import SourceRecovery.Proofs.StreamContents
import SourceRecovery.Proofs.DirectoryRoundTrip
import SourceRecovery.Proofs.ResolvedNames
import SourceRecovery.Proofs.TopLevelInputs
import SourceRecovery.Proofs.HeapReads
import SourceRecovery.Proofs.LimitedSearch
import SourceRecovery.Proofs.LoadedImage
import SourceRecovery.Proofs.Repetitions
