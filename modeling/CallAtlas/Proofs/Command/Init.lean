import CallAtlas.Proofs.Command.Effects
import CallAtlas.Proofs.Paths
import CallAtlas.Proofs.Settings.Storage

/-!
# New settings files

A new settings file takes the place of what has its name in the directory only by force. Where one has
been made no other file has changed, and whoever works in the directory has the plain settings, since its
name is the first one under which settings are looked for.
-/

namespace CallAtlas

open Files

variable {files : Files} {desk after : Desk} {directory : Option String}

namespace Analyzer

/-! ## The path of a new settings file -/

end Analyzer

/-! ## What is found in a directory -/

end CallAtlas
