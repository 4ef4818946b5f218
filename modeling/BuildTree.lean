import BuildTree.Main
import BuildTree.Proofs.BuiltIn
import BuildTree.Proofs.LiveEntries
import BuildTree.Proofs.Stream
import BuildTree.Proofs.Moves
import BuildTree.Proofs.Acts
import BuildTree.Proofs.TrackerMoves
import BuildTree.Proofs.Calls
import BuildTree.Proofs.Lifecycle
import BuildTree.Proofs.Downloads
import BuildTree.Proofs.RootOutcomes
import BuildTree.Proofs.Verdict
import BuildTree.Proofs.HostRules
import BuildTree.Proofs.Steps
import BuildTree.Proofs.Turns
import BuildTree.Proofs.Listeners
import BuildTree.Proofs.Endings
import BuildTree.Proofs.Observers
import BuildTree.Proofs.Depths
import BuildTree.Proofs.Copies
import BuildTree.Proofs.Completions
import BuildTree.Proofs.Restarts
import BuildTree.Proofs.Renumbering
import BuildTree.Proofs.Workers
import BuildTree.Proofs.Confinement
import BuildTree.Proofs.Interleavings
import BuildTree.Proofs.Encoding
import BuildTree.Proofs.Pieces
import BuildTree.Proofs.Grammar
import BuildTree.Proofs.Script
import BuildTree.Proofs.Replay
import BuildTree.Proofs.Histories
import BuildTree.Proofs.Representation
import BuildTree.Proofs.Lookups
import BuildTree.Proofs.Equivariance
import BuildTree.Proofs.Reruns
import BuildTree.Proofs.SpyChannel
import BuildTree.Proofs.Nesting
import BuildTree.Proofs.Paragraphs
import BuildTree.Proofs.JavaGrammar
import BuildTree.Proofs.KotlinGrammar
import BuildTree.Proofs.ByteLines
import BuildTree.Proofs.Positions
import BuildTree.Proofs.PendingProjects
import BuildTree.Proofs.Tallies
import BuildTree.Proofs.OpenNodes
import BuildTree.Proofs.Continuations
