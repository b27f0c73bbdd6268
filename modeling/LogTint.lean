import LogTint.Proofs.Answers
import LogTint.Proofs.Appending
import LogTint.Proofs.Attributes
import LogTint.Proofs.Balance
import LogTint.Proofs.CacheRetention
import LogTint.Proofs.Ceiling
import LogTint.Proofs.Cursors
import LogTint.Proofs.Debounce
import LogTint.Proofs.Detection
import LogTint.Proofs.FileMatching
import LogTint.Proofs.Grammar
import LogTint.Proofs.Invisibility
import LogTint.Proofs.Isolation
import LogTint.Proofs.LatestEdit
import LogTint.Proofs.Noninterference
import LogTint.Proofs.Normalizing
import LogTint.Proofs.Publication
import LogTint.Proofs.Reconfiguring
import LogTint.Proofs.Reencoding
import LogTint.Proofs.Regrouping
import LogTint.Proofs.Releasing
import LogTint.Proofs.Reloading
import LogTint.Proofs.Rendition
import LogTint.Proofs.Restarting
import LogTint.Proofs.Rewriting
import LogTint.Proofs.Silence
import LogTint.Proofs.Stripping
import LogTint.Proofs.Sweeping
import LogTint.Proofs.Tiling
import LogTint.Rewrite.Normalize
import LogTint.Rewrite.Replace
import LogTint.Rewrite.Strip
import LogTint.Statistics
