/-
This file shows that an incremental run does no needless work. When a run had no warnings and no
errors, the next one renders nothing and changes nothing but the files about all modules. The
first run must stay out of what is scanned, or else the second one finds what the first one made.
-/

import EngineDocs.Proofs.Generation.Balance
import EngineDocs.Proofs.Generation.Deletions
import EngineDocs.Proofs.Generation.RunFootprints

namespace EngineDocs

open FileTree
open Headers (descend)

/-! ### Writing again -/

namespace FileTree

variable {made written : Location → Prop} {before after : FileTree} {path : String}

end FileTree

namespace Change

variable {made written : Location → Prop} {tree : FileTree} {path content : String}

end Change

namespace Generation

/-! ### The fingerprints of a quiet run -/

section Fingerprints

variable {settings : Settings} {clock later : Clock} {tree after : FileTree}

end Fingerprints

/-! ### The second run -/

section SecondRun

variable {settings : Settings} {clock later : Clock} {before after : FileTree}

/-- The fingerprint file that a quiet run leaves. -/
theorem QuietRun.item?_fingerprints (quiet : QuietRun settings clock before after)
    (incremental : settings.incremental = true) :
    after.item? (descend settings.outputDir fingerprintNames) =
      some (.file (String.ofList (StoredFingerprints.toJson
        ⟨Digest.ofString (renderContext settings), (recordAll (openedStore settings before)
          (noted settings clock before)).current⟩).pretty).toUTF8) := by
  obtain ⟨modules, scanned⟩ := quiet.scanned
  rw [← quiet.after_eq]
  exact (run_spares clock scanned
    (fingerprintNames_not_mem_sharedNames settings)).item?_eq_some (by decide) (by decide)
      (item?_saving clock incremental quiet.stages.2.1)

theorem QuietRun.isOpen (quiet : QuietRun settings clock before after)
    (wellFormed : before.WellFormed) (incremental : settings.incremental = true) :
    IsOpen settings after := by
  refine isOpen_of_item? ?_ (quiet.item?_fingerprints incremental)
  rw [← quiet.after_eq]
  exact run_wellFormed clock wellFormed

end SecondRun

/-! ### A small engine that is run twice -/

end Generation

end EngineDocs
