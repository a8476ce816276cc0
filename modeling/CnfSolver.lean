import CnfSolver.Main
import CnfSolver.Semantics
import CnfSolver.Proofs.LeastModel
import CnfSolver.Proofs.ReplayModes
import CnfSolver.Proofs.TrailEntailment
import CnfSolver.Proofs.Unwinding
import CnfSolver.Proofs.LearnedClauses
import CnfSolver.Proofs.Termination
import CnfSolver.Proofs.StrengtheningSeries
import CnfSolver.Proofs.SolverAgreement
import CnfSolver.Proofs.Numerals
import CnfSolver.Proofs.TextLayout
import CnfSolver.Proofs.DimacsGrammar
import CnfSolver.Proofs.DimacsRoundTrip
import CnfSolver.Proofs.PropagationClosure
import CnfSolver.Proofs.ConflictAnalysis
import CnfSolver.Proofs.DecisionLimit
import CnfSolver.Proofs.PairScan
import CnfSolver.Proofs.AllPairs
import CnfSolver.Proofs.DecisionBalance
import CnfSolver.Proofs.CountingOrder
import CnfSolver.Proofs.ReaderAgreement
import CnfSolver.Proofs.IncrementalReplay
import CnfSolver.Proofs.PartialAssignment
import CnfSolver.Proofs.DatabaseIndexes
import CnfSolver.Proofs.RandomDraws
import CnfSolver.Proofs.TrailLookups
import CnfSolver.Proofs.ModelCheck
