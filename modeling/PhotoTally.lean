import PhotoTally.Main
import PhotoTally.Proofs.AtomicWrite.Stages
import PhotoTally.Proofs.CommandLine.Request
import PhotoTally.Proofs.Config
import PhotoTally.Proofs.Ledger.Acceptance
import PhotoTally.Proofs.Ledger.File
import PhotoTally.Proofs.Ledger.Repeated
import PhotoTally.Proofs.Photo
import PhotoTally.Proofs.Program.Artefacts
import PhotoTally.Proofs.Program.Failing
import PhotoTally.Proofs.Reconcile.Balance
import PhotoTally.Proofs.Reconcile.Clutter
import PhotoTally.Proofs.Reconcile.Destination
import PhotoTally.Proofs.Reconcile.Retry
import PhotoTally.Proofs.Reconcile.Unreached
import PhotoTally.Proofs.Report.Script
import PhotoTally.Proofs.Report.Summary
import PhotoTally.Proofs.Run.Again
import PhotoTally.Proofs.Run.DryRun
import PhotoTally.Proofs.Run.History
import PhotoTally.Proofs.Scan.Independent
