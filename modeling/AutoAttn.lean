import AutoAttn.FileTransaction.Properties
import AutoAttn.Journal.Sequence
import AutoAttn.Journal.Reopen
import AutoAttn.Reconciliation.ScanIntegrity
import AutoAttn.Reconciliation.RecordSize
import AutoAttn.Reconciliation.NewestPunch
import AutoAttn.Attendance.ManualApproval
import AutoAttn.LeaseGuard
import AutoAttn.LegacyQueue.CursorVerdict
import AutoAttn.LegacyQueue.Custody
import AutoAttn.NewestAlerts
import AutoAttn.QueueEvidence.Run
import AutoAttn.Zkt.OccurrenceMatchProperties
import AutoAttn.Zkt.Capture
import AutoAttn.Zkt.CustodyReceipts
import AutoAttn.Zkt.CustodySchedule
import AutoAttn.Reconciliation.Divergence
import AutoAttn.Reconciliation.Replay
import AutoAttn.Reliability.CursorProperties
import AutoAttn.StorageRepair.Fill
import AutoAttn.StorageRepair.Mirror
import AutoAttn.Zkt.DecodeAgreement
import AutoAttn.LeaseStore
import AutoAttn.Hikvision.TailResume
import AutoAttn.DeviceSession.Properties
import AutoAttn.UidCache
import AutoAttn.DeliveryScheduler
import AutoAttn.StorageRepair.Budget
import AutoAttn.StorageRepair.Gaps
import AutoAttn.Journal.Canonical
import AutoAttn.SegmentedQueue.Client
import AutoAttn.AttendanceBatch.Accounting
import AutoAttn.Hikvision.StreamBounds
