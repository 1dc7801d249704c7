import AttestationService.Connection
import AttestationService.Listeners
import AttestationService.Main
import AttestationService.Settings.Load
import AttestationService.Startup
import AttestationService.Verifier.Installation
import AttestationService.Proofs.Queue.Course
import AttestationService.Proofs.Session.Arrival
import AttestationService.Proofs.Session.History
import AttestationService.Proofs.Session.Replies
import AttestationService.Proofs.Gateway.Histories
import AttestationService.Proofs.Intake.Digits
import AttestationService.Proofs.Intake.Ruling
import AttestationService.Proofs.Session.Attestation
import AttestationService.Proofs.Session.Admission
import AttestationService.Proofs.Session.Identity
import AttestationService.Proofs.Outcome
import AttestationService.Proofs.Verifier.Report
import AttestationService.Proofs.Json.Integers
import AttestationService.Proofs.Json.Documents
import AttestationService.Proofs.Json.Lexemes
import AttestationService.Proofs.PassThrough
import AttestationService.Proofs.Answer
import AttestationService.Proofs.Http.Form
import AttestationService.Proofs.Session.Agreement
import AttestationService.Proofs.Session.Milestones
import AttestationService.Proofs.Json.Grammar
import AttestationService.Proofs.Text.LineEnds
import AttestationService.Proofs.Json.LineEnds
import AttestationService.Proofs.Verifier.Token
import AttestationService.Proofs.Verifier.Streams
import AttestationService.Proofs.Compatibility
import AttestationService.Proofs.Listeners
import AttestationService.Proofs.Intake.BodyNonce
import AttestationService.Proofs.Intake.QueryNonce
import AttestationService.Proofs.Intake.Bystanders
import AttestationService.Proofs.Correlation.Fields
import AttestationService.Proofs.Intake.Reading
import AttestationService.Proofs.Session.Reading
import AttestationService.Proofs.Settings.Fields
import AttestationService.Proofs.Settings.Layers
import AttestationService.Proofs.Settings.Sources
import AttestationService.Proofs.Settings.Load
