import Vsid.Common.FlowClassificationLogger
import Vsid.Laws.Isolation
import Vsid.Laws.Lifecycle
import Vsid.Laws.Lives
import Vsid.Laws.Matching
import Vsid.Laws.Measuring
import Vsid.Laws.StrayPackets
import Vsid.Laws.Workers.Deletion
import Vsid.Laws.Workers.Known
import Vsid.Laws.Workers.Counting
import Vsid.Laws.Workers.Order
import Vsid.Laws.Workers.Notification
import Vsid.Laws.Workers.Deadlock
import Vsid.Laws.PortOrder
import Vsid.Laws.Verdicts
import Vsid.Laws.Frames
import Vsid.Laws.Teardown
import Vsid.Laws.Bookkeeping
import Vsid.Laws.Workers.Behind
import Vsid.Laws.Workers.Follows
import Vsid.Laws.Workers.Refinement
import Vsid.Laws.DatabaseLoad
import Vsid.Laws.Ledger
import Vsid.Laws.IdleGaps
import Vsid.Laws.Distributions
import Vsid.Laws.Training
import Vsid.Laws.TrainedDistributions
import Vsid.Laws.Reset
import Vsid.Laws.DatabaseSave
import Vsid.Laws.Limits
import Vsid.Laws.StateMachine
import Vsid.Laws.Feeding
import Vsid.Laws.SameConnection
import Vsid.Laws.BitPositions
import Vsid.Laws.Reactions
import Vsid.Laws.FirstPacket
import Vsid.Laws.Directions
import Vsid.Laws.Writes
import Vsid.Laws.Rates
import Vsid.Laws.ResultSets
import Vsid.Laws.Hashing
import Vsid.Laws.Divergences
import Vsid.Laws.FreshStart
import Vsid.Laws.TrainingProgram
import Vsid.Laws.DatabaseScripts
import Vsid.Laws.Labels
import Vsid.Laws.Evaluation
import Vsid.Laws.ResultLines
import Vsid.Laws.SwitchedOff
import Vsid.Laws.Retraining
