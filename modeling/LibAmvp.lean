import LibAmvp.Session.RequestFile
import LibAmvp.Session.NetworkAction
import LibAmvp.Session.RunResult
import LibAmvp.Session.Offline
import LibAmvp.Session.Certification
import LibAmvp.Session.Polling
import LibAmvp.OperatingEnv.Faithful
import LibAmvp.OperatingEnv.Interference
import LibAmvp.OperatingEnv.Consistency
import LibAmvp.OperatingEnv.Completeness
import LibAmvp.Capabilities.WellTyped
import LibAmvp.Capabilities.Failures
import LibAmvp.Kat.MacKdfIndependence
import LibAmvp.Kat.Lengths
import LibAmvp.Kat.Mirror
import LibAmvp.Kat.AsymIndependence
import LibAmvp.Kat.SymIndependence
import LibAmvp.Kat.NoFabrication
import LibAmvp.Kat.KdfRegistered
import LibAmvp.Session.RegistrationReply
import LibAmvp.Session.SessionFile
import LibAmvp.Session.Evidence
import LibAmvp.Session.Resume
import LibAmvp.Session.ResultsCheck
import LibAmvp.Session.FailureReport
import LibAmvp.Session.ProtocolError
import LibAmvp.Session.OfflineReports
import LibAmvp.Session.Configuration
import LibAmvp.Session.Receive
import LibAmvp.Session.RequestUrls
import LibAmvp.Session.QueryUrl
import LibAmvp.Kat.ShakeLengths
import LibAmvp.Kat.HashMonteCarlo
import LibAmvp.Kat.ModuleFailures
import LibAmvp.Capabilities.Domains
import LibAmvp.Capabilities.Schemes
import LibAmvp.Capabilities.KtsIfc
import LibAmvp.OperatingEnv.Validation
import LibAmvp.Kat.AesMonteCarlo
import LibAmvp.Kat.DesMonteCarlo
import LibAmvp.Session.StringList
import LibAmvp.Registration.KdaPattern
import LibAmvp.Registration.AcceptedParameters
import LibAmvp.Registration.EcdsaCurves
import LibAmvp.Kat.DecprimAccounting
import LibAmvp.Kat.Verdicts
import LibAmvp.Kat.TextParameters
import LibAmvp.Kat.RsaPadding
import LibAmvp.Lib.Directory
import LibAmvp.Lib.JsonText
import LibAmvp.Parson.Accessors
import LibAmvp.Parson.Copies
import LibAmvp.Parson.RoundTrip
import LibAmvp.Parson.SentObjects
import LibAmvp.SafeC.PatternTokens
