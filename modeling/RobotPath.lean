import RobotPath.Compiler.Basic
import RobotPath.Program.Storage
import RobotPath.Interchange.Config
import RobotPath.Interchange.Toolpath
import RobotPath.Proofs.Decimal.Double
import RobotPath.Proofs.Decimal.Denotation
import RobotPath.Proofs.Compiler.Reference
import RobotPath.Proofs.Compiler.Transparency
import RobotPath.Proofs.Compiler.Order
import RobotPath.Proofs.Decimal.Nearest
import RobotPath.Proofs.Program.Lines
import RobotPath.Proofs.Compiler.Lines
import RobotPath.Proofs.Compiler.Relevance
import RobotPath.Proofs.Compiler.Causality
import RobotPath.Proofs.Decimal.Printed
import RobotPath.Proofs.Program.Pieces
import RobotPath.Proofs.Compiler.Declared
import RobotPath.Proofs.Compiler.Speeds
import RobotPath.Proofs.Compiler.Calls
import RobotPath.Proofs.Compiler.Independence
import RobotPath.Proofs.Compiler.Log
import RobotPath.Proofs.Compiler.Priority
import RobotPath.Proofs.Decimal.Whole
import RobotPath.Proofs.Compiler.Respelling
import RobotPath.Proofs.Program.Numbers
import RobotPath.Proofs.Compiler.Executable
import RobotPath.Proofs.Json.Record
import RobotPath.Proofs.Interchange.Pose
import RobotPath.Proofs.Interchange.Config
import RobotPath.Proofs.Interchange.Toolpath
import RobotPath.Proofs.Decimal.Canonical
import RobotPath.Proofs.Compiler.Components
import RobotPath.Proofs.Interchange.Stored
import RobotPath.Proofs.ProcessValue.Equality
import RobotPath.Proofs.Compiler.StoredJob
import RobotPath.Proofs.Decimal.Rounding
import RobotPath.Proofs.Program.Moves
import RobotPath.Proofs.Latest
import RobotPath.Proofs.ProcessValue.Profile
import RobotPath.Proofs.Program.Storage
import RobotPath.Proofs.Bytes
import RobotPath.Proofs.Compiler.Sequence
import RobotPath.Proofs.Decimal.Neutral
import RobotPath.Proofs.Placement
