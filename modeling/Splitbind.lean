import Splitbind.Access.Isolation
import Splitbind.Access.ResolutionRuns
import Splitbind.Benchmark.Localization
import Splitbind.Benchmark.Resumption
import Splitbind.Demo.EvidenceRewrites
import Splitbind.Demo.ImageAgreement
import Splitbind.Demo.IssuanceReplay
import Splitbind.Demo.JobMachine
import Splitbind.Demo.OutboxAgreement
import Splitbind.Demo.RasterDecoding
import Splitbind.Demo.RecoveryRuns
import Splitbind.Demo.VerificationMirror
import Splitbind.Documents.IssuanceRequests
import Splitbind.Documents.KeyLifecycle
import Splitbind.Documents.ManifestAgreement
import Splitbind.Documents.SigningKeys
import Splitbind.Fingerprint.PageDecodingV3
import Splitbind.Fingerprint.PilotHypotheses
import Splitbind.Integrity.TagRoundTrip
import Splitbind.Retention.Batch
import Splitbind.Retention.Rotation
import Splitbind.Retention.StorageKeys
import Splitbind.Uploads.CompletionRuns
import Splitbind.Uploads.Download
import Splitbind.Uploads.FileNames
import Splitbind.Uploads.PagePrecheck
