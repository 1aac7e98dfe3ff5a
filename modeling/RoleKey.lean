import RoleKey.Files.Directory
import RoleKey.Main
import RoleKey.Proofs.SignThenVerify
import RoleKey.Proofs.TranscriptionErrors
import RoleKey.Role.Json
import RoleKey.Proofs.CodewordWeight
import RoleKey.Proofs.TextDistance
import RoleKey.Proofs.PairVerification
import RoleKey.Proofs.VerificationDecision
import RoleKey.Proofs.CorruptionReports
import RoleKey.Proofs.RefusalCauses
import RoleKey.Proofs.RecordRoundTrip
import RoleKey.Proofs.InspectionReport
import RoleKey.Proofs.InspectionVerdict
import RoleKey.Proofs.GeneratedOutput
import RoleKey.Proofs.FileContents
import RoleKey.Proofs.SeedClasses
import RoleKey.Proofs.SeedSecrecy
import RoleKey.Proofs.SeedRefusals
import RoleKey.Proofs.Base32Refusals
import RoleKey.Proofs.Base32Windows
import RoleKey.Proofs.ChecksumRemainder
import RoleKey.Proofs.SecretsDrawn
import RoleKey.Proofs.WrittenCommandLines
import RoleKey.Proofs.DiagnosticsErasure
import RoleKey.Proofs.DiagnosticsIndependence
import RoleKey.Guarded
import RoleKey.Proofs.GuardedBase32
import RoleKey.Proofs.GuardedReading
