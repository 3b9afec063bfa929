import DriveLog.Bytes.Agreement
import DriveLog.Main
import DriveLog.Proofs.AttributeLines
import DriveLog.Proofs.CaptureRuns
import DriveLog.Proofs.CapturedErrorLog
import DriveLog.Proofs.DamageConfinement
import DriveLog.Proofs.DistinctLabels
import DriveLog.Proofs.DistinctReports
import DriveLog.Proofs.FirmwareReports
import DriveLog.Proofs.FixedSubpageReports
import DriveLog.Proofs.HexDumps
import DriveLog.Proofs.LimitedSinks
import DriveLog.Proofs.LoggedAnomalies
import DriveLog.Proofs.NarrowCounters
import DriveLog.Proofs.NumberLanguage
import DriveLog.Proofs.ParameterReports
import DriveLog.Proofs.PrintableReports
import DriveLog.Proofs.RecordLayouts
import DriveLog.Proofs.ReportSplitting
import DriveLog.Proofs.ReportedBytes
import DriveLog.Proofs.RetrievalProtocol
import DriveLog.Proofs.ScratchNumerals
import DriveLog.Proofs.SentinelLists
import DriveLog.Proofs.SlotLists
import DriveLog.Proofs.StoredCaptures
import DriveLog.Proofs.StoredParameters
import DriveLog.Proofs.SubpageTiling
import DriveLog.Proofs.SufficientPages
import DriveLog.Proofs.Truncation
import DriveLog.Proofs.Verbosity
import DriveLog.Proofs.WindowOwnership
import DriveLog.Retrieval.Bench
import DriveLog.Retrieval.Disk
import DriveLog.Text.Blocks
import DriveLog.Text.Numerals
import DriveLog.Text.Rounding
import DriveLog.Window.Family
