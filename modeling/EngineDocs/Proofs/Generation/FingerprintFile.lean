/-
This file shows that a fingerprint file gives back what was stored in it: under the context that it
was stored in, each module has the fingerprint that was noted for it last, and under a context with
another digest no module has one. The data file of a module is no fingerprint file.
-/

import EngineDocs.Generation.Run
import EngineDocs.Proofs.Module
import EngineDocs.Proofs.Text.Order

namespace EngineDocs

/-! ### Fingerprints by name -/

/-- The fingerprint that a list gives to a name; the last one counts. -/
def lastFingerprint? (pairs : List (String × String)) (name : String) : Option String :=
  (pairs.reverse.find? (·.1 == name)).map Prod.snd

theorem lastFingerprint?_mem {pairs : List (String × String)} {name fingerprint : String}
    (found : lastFingerprint? pairs name = some fingerprint) : (name, fingerprint) ∈ pairs := by
  obtain ⟨⟨other, last⟩, located, rfl⟩ := Option.map_eq_some_iff.mp found
  have same : other = name := by simpa using List.find?_some located
  rw [← same]
  exact List.mem_reverse.mp (List.mem_of_find?_eq_some located)

theorem lastFingerprint?_isSome {pairs : List (String × String)} {name fingerprint : String}
    (member : (name, fingerprint) ∈ pairs) : ∃ last, lastFingerprint? pairs name = some last := by
  have found : (pairs.reverse.find? (·.1 == name)).isSome := by
    rw [List.find?_isSome]
    exact ⟨_, List.mem_reverse.mpr member, beq_self_eq_true name⟩
  obtain ⟨pair, located⟩ := Option.isSome_iff_exists.mp found
  exact ⟨pair.2, by rw [lastFingerprint?, located]; rfl⟩

namespace FingerprintMap

theorem getElem?_foldl_insert (pairs : List (String × String)) (map : FingerprintMap)
    (name : String) :
    (pairs.foldl (fun (modules : FingerprintMap) pair => modules.insert pair.1 pair.2) map)[name]? =
      (lastFingerprint? pairs name).or map[name]? := by
  induction pairs generalizing map with
  | nil => rfl
  | cons pair pairs inductionHypothesis =>
    rw [List.foldl_cons, inductionHypothesis, Std.TreeMap.getElem?_insert, lastFingerprint?,
      lastFingerprint?, List.reverse_cons, List.find?_append]
    simp only [Std.LawfulEqCmp.compare_eq_iff_eq]
    cases pairs.reverse.find? (·.1 == name) with
    | some found => rfl
    | none =>
      by_cases same : pair.1 = name
      · simp [same]
      · simp [same]

/-- A map is made anew from its list. -/
theorem getElem?_foldl_insert_toList (map : FingerprintMap) (name : String) :
    (map.toList.foldl (fun (modules : FingerprintMap) pair => modules.insert pair.1 pair.2)
      {})[name]? = map[name]? := by
  rw [getElem?_foldl_insert]
  cases here : map[name]? with
  | none =>
    cases found : lastFingerprint? map.toList name with
    | none => rfl
    | some fingerprint =>
      have member := Std.TreeMap.mem_toList_iff_getElem?_eq_some.mp (lastFingerprint?_mem found)
      exact absurd (member.symm.trans here) nofun
  | some fingerprint =>
    have member := Std.TreeMap.mem_toList_iff_getElem?_eq_some.mpr here
    obtain ⟨last, found⟩ := lastFingerprint?_isSome member
    have noted := Std.TreeMap.mem_toList_iff_getElem?_eq_some.mp (lastFingerprint?_mem found)
    rw [found, ← Option.some.inj (noted.symm.trans here)]
    rfl

end FingerprintMap

/-! ### Reading what was stored -/

namespace StoredFingerprints

theorem fits_toJson (stored : StoredFingerprints) : Json.Fits 2 stored.toJson := by
  refine .obj ?_
  simp only [List.forall_mem_cons]
  refine ⟨.str _, .obj ?_, nofun⟩
  intro field member
  obtain ⟨pair, _, rfl⟩ := List.mem_map.mp member
  exact .str _

theorem mapM_readField? (pairs : List (String × String)) :
    (pairs.map fun (name, fingerprint) => (name, Json.str fingerprint)).mapM readField? =
      some pairs := by
  induction pairs with
  | nil => rfl
  | cons pair pairs inductionHypothesis =>
    rw [List.map_cons, List.mapM_cons, inductionHypothesis]
    rfl

theorem ofJson?_toJson (stored : StoredFingerprints) :
    ∃ modules : FingerprintMap, ofJson? stored.toJson = some ⟨stored.context, modules⟩ ∧
      ∀ name : String, modules[name]? = stored.modules[name]? := by
  refine ⟨_, ?_, FingerprintMap.getElem?_foldl_insert_toList stored.modules⟩
  have unique : (isRepeated "context" stored.toJson || isRepeated "modules" stored.toJson) =
      false := rfl
  have read : stored.toJson.record? fields = some [some (.str stored.context),
      some (.obj (stored.modules.toList.map fun (name, fingerprint) =>
        (name, .str fingerprint)))] := rfl
  rw [ofJson?, unique, read]
  simp only [Option.bind_some, Json.asString?, readModules?, mapM_readField?]
  rfl

end StoredFingerprints

namespace FingerprintStore

/-- A file that was stored under the context has the fingerprints that were stored, and any other
file has none. -/
theorem getElem?_previousOf (stored : StoredFingerprints) (context name : String) :
    (previousOf (String.ofList stored.toJson.pretty) context)[name]? =
      if stored.context = context then stored.modules[name]? else none := by
  obtain ⟨modules, read, same⟩ := stored.ofJson?_toJson
  rw [previousOf, String.toList_ofList, Json.skim?_pretty _ stored.fits_toJson, Option.bind_some,
    read]
  simp only [beq_iff_eq]
  by_cases equal : stored.context = context
  · rw [if_pos equal, if_pos equal, same]
  · rw [if_neg equal, if_neg equal]
    rfl

/-- The data file of a module has no fingerprints. -/
theorem previousOf_ofModule (edition : Edition) (data : ModuleData) (context : String) :
    previousOf (String.ofList (DataFile.ofModule edition data).pretty) context = {} := by
  rw [previousOf, String.toList_ofList, Json.skim?_pretty _ (DataFile.fits_ofModule edition data)]
  rfl

theorem recordAll_eq (store : FingerprintStore) (modules : List Generation.Fingerprinted) :
    Generation.recordAll store modules =
      { store with
        current := (modules.map fun candidate => (candidate.1.name, candidate.2)).foldl
          (fun (current : FingerprintMap) pair => current.insert pair.1 pair.2) store.current } := by
  rw [Generation.recordAll]
  induction modules generalizing store with
  | nil => rfl
  | cons candidate modules inductionHypothesis =>
    rw [List.foldl_cons, inductionHypothesis]
    rfl

end FingerprintStore

end EngineDocs
