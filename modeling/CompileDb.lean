import CompileDb.Launch
import CompileDb.Main
import CompileDb.Proofs.RecursiveBuild
import CompileDb.Proofs.WholeRun
import CompileDb.Proofs.NormalForm
import CompileDb.Proofs.FailedRun
import CompileDb.Proofs.FailingLine
import CompileDb.Proofs.History
import CompileDb.Proofs.SessionMerge
import CompileDb.Proofs.RepeatedRun
import CompileDb.Proofs.LineQueue
import CompileDb.Proofs.Relaying
import CompileDb.Proofs.Collecting
import CompileDb.Proofs.Bracketing
import CompileDb.Proofs.Resolving
import CompileDb.Proofs.WordGrammar
import CompileDb.Proofs.EmptyArguments
import CompileDb.Proofs.PrintedCommand
import CompileDb.Proofs.Aborting
import CompileDb.Proofs.Echoing
import CompileDb.Proofs.Loading
import CompileDb.Proofs.GivenValues
import CompileDb.Proofs.Flushing
import CompileDb.Proofs.Quoting
import CompileDb.Proofs.Calculating
import CompileDb.Proofs.Carrying
import CompileDb.Proofs.Launching
import CompileDb.Proofs.Selecting
import CompileDb.Proofs.Sorting
import CompileDb.Proofs.Differing
import CompileDb.Proofs.Coding
