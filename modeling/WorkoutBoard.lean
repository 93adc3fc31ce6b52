import WorkoutBoard.Command.Provision
import WorkoutBoard.Command.Server
import WorkoutBoard.Main
import WorkoutBoard.Proofs.Calendar.Bytewise.Timestamp
import WorkoutBoard.Proofs.Calendar.Day
import WorkoutBoard.Proofs.Calendar.Zulu
import WorkoutBoard.Proofs.Command.Arguments
import WorkoutBoard.Proofs.Command.Provision
import WorkoutBoard.Proofs.Config.Environment
import WorkoutBoard.Proofs.Service.Addressing
import WorkoutBoard.Proofs.Service.Agreement
import WorkoutBoard.Proofs.Service.Concurrency
import WorkoutBoard.Proofs.Service.Disposition
import WorkoutBoard.Proofs.Service.Effect
import WorkoutBoard.Proofs.Service.Guard
import WorkoutBoard.Proofs.Service.Origin
import WorkoutBoard.Proofs.Service.Outage
import WorkoutBoard.Proofs.Service.Readback
import WorkoutBoard.Proofs.Service.Secrecy
import WorkoutBoard.Proofs.Service.Stored
import WorkoutBoard.Proofs.Service.Sweep
import WorkoutBoard.Proofs.Store.Superset
import WorkoutBoard.Proofs.Workout.Encoding
