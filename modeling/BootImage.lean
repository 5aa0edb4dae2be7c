import BootImage.FileSystem.Lemmas
import BootImage.Main
import BootImage.Proofs.Image.Sectors
import BootImage.Workbench
import BootImage.Proofs.Image.Publish
import BootImage.Proofs.FileSystem.MakeDirectories
import BootImage.Proofs.Workbench.Effect
import BootImage.Proofs.Workbench.Reached
import BootImage.Proofs.Workbench.SectorArrays
import BootImage.Proofs.Workbench.StagingFiles
import BootImage.Proofs.Layout.Verdict
import BootImage.Proofs.Image.Recovery
import BootImage.Proofs.FileSystem.Replace
import BootImage.Proofs.Build.Promise
import BootImage.Proofs.Build.Failure
import BootImage.Proofs.Job.Interleaving
import BootImage.Proofs.Image.Geometry
import BootImage.Proofs.Image.Padding
import BootImage.Proofs.Image.Publishable
import BootImage.Proofs.CommandLine.Sizes
import BootImage.Proofs.Build.Phases
import BootImage.Proofs.Build.Footprint
import BootImage.Proofs.Build.Decision
import BootImage.Proofs.Path.Tags
import BootImage.Proofs.Build.Repeat
import BootImage.Proofs.Record.Decoding
import BootImage.Proofs.Image.Faultless
import BootImage.Proofs.Build.Presentation
import BootImage.Proofs.CommandLine.Meaning
import BootImage.Proofs.Image.Kernel
import BootImage.Proofs.Disk.Comparison
import BootImage.Proofs.Build.Oversize
import BootImage.Proofs.Image.Affordable
import BootImage.Proofs.Build.Verification
import BootImage.Proofs.Build.Availability
import BootImage.Proofs.Layout.Rounding
import BootImage.Proofs.Record.Configuration
import BootImage.Proofs.Report.Identity
import BootImage.Proofs.Path.Components
import BootImage.Proofs.Program.ErrorLine
import BootImage.Proofs.Job.Refusals
