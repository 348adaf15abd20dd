import Zc.Override.Configured
import Zc.Store.Authority

/-!
# Admission

What a bundle that the catalog admits as ready establishes about its document.
-/

namespace zc.service

open override_script (Map Fits projection runtime_source)
open config (Assets Config)
open store (Platform Bundle)

variable {crates : Crates}

/-! ## An admitted bundle -/

theorem catalog_ready_eq_true {platform : Platform} {bundle : Bundle} (hready : bundle.catalog_ready platform = .ok true) :
    ∃ text, str.from_utf8 bundle.effective_source = some text ∧ bundle.validate_offline platform text = .ok () := by
  simp only [Bundle.catalog_ready, bind_eq_ok_iff, okOr_eq_ok_iff] at hready
  obtain ⟨text, htext, hready⟩ := hready
  refine ⟨text, htext, ?_⟩
  split at hready
  · next hok => exact hok
  · exfalso
    simp only [Bundle.recovery_ready, bind_eq_ok_iff] at hready
    obtain ⟨_, -, document, -, hready⟩ := hready
    split at hready
    · cases hready
    · split at hready <;> cases hready

theorem valid_of_parse_document {text : String} {document : Value} (hlaw : crates.Lawful)
    (hdocument : config.parse_document crates text = .ok document) : document.valid = true := by
  simp only [config.parse_document, bind_eq_ok_iff] at hdocument
  obtain ⟨value, hvalue, _, -, ⟨⟩⟩ := hdocument
  exact hlaw.valid _ _ hvalue

/-! ## Documents with local providers -/

section Local

variable {platform : Platform} (hlaw : platform.crates.Lawful) {map : Map} (hvalid : (Value.object map).valid = true) (hfits : Fits map)

/-- The document alone, with what its providers refer to. -/
def localBundle (map : Map) (assets : SortedMap String store.Asset) : Bundle :=
  { source := serde_json.to_vec (.object map), materialized := none, assets, remotes := [] }

/-- Whether a configuration can be made of the projection of a document. -/
def admits (crates : Crates) (map : Map) (assets : Assets) : Bool :=
  match projection crates map with
  | .ok out => decide (String.utf8Len (Value.object out).text ≤ config.MAX_SOURCE_BYTES) &&
      (Config.of_document crates (.object out) (some assets)).toBool
  | .error _ => false

theorem exists_of_admits {assets : Assets} (hadmits : admits crates map assets = true) : ∃ out cfg, projection crates map = .ok out ∧
    str.len (serde_json.to_string (.object out)) ≤ config.MAX_SOURCE_BYTES ∧
    Config.of_document crates (.object out) (some assets) = .ok cfg := by
  unfold admits at hadmits
  split at hadmits
  · next out hout =>
    rw [Bool.and_eq_true, decide_eq_true_eq, ← override_script.len_to_string] at hadmits
    cases hcfg : Config.of_document crates (.object out) (some assets) with
    | error error =>
      rw [hcfg] at hadmits
      cases hadmits.2
    | ok cfg => exact ⟨out, cfg, hout, hadmits.1, hcfg⟩
  · cases hadmits

include hlaw hvalid hfits

theorem parse_document_local : platform.parse_document (serde_json.to_vec (.object map)) = .ok (.object map) := by
  have hutf8 : str.from_utf8 (serde_json.to_vec (.object map)) = some (serde_json.to_string (.object map)) :=
    str.from_utf8_eq_some_iff.2 rfl
  have hlen : str.len (serde_json.to_string (.object map)) ≤ config.MAX_SOURCE_BYTES := by
    rw [override_script.len_to_string, ← override_script.length_to_vec]
    exact hfits.bytes
  simp only [Platform.parse_document, bind_eq_ok_iff, ensure_eq_ok_iff, decide_eq_true_eq, okOr_eq_ok_iff, hutf8]
  exact ⟨(), hfits.bytes, _, rfl, override_script.parse_document_to_string hlaw hvalid hlen⟩

theorem catalog_ready_local {assets : SortedMap String store.Asset}
    (hadmits : admits platform.crates map (localBundle map assets).local_asset_bytes = true) :
    (localBundle map assets).catalog_ready platform = .ok true := by
  obtain ⟨out, cfg, hout, hlen, hcfg⟩ := exists_of_admits hadmits
  have hutf8 : str.from_utf8 (localBundle map assets).effective_source = some (serde_json.to_string (.object map)) :=
    str.from_utf8_eq_some_iff.2 rfl
  have hsource : str.len (serde_json.to_string (.object map)) ≤ config.MAX_SOURCE_BYTES := by
    rw [override_script.len_to_string, ← override_script.length_to_vec]
    exact hfits.bytes
  have hruntime := (override_script.runtime_source_to_vec_iff hlaw hvalid).2 ⟨hfits, out, hout, rfl⟩
  have hparse := (override_script.parse_inner_to_string_iff hlaw (override_script.valid_projection hvalid hout)).2 ⟨hlen, hcfg⟩
  have hoffline : (localBundle map assets).validate_offline platform (serde_json.to_string (.object map)) = .ok () := by
    simp only [Bundle.validate_offline, bind_eq_ok_iff]
    exact ⟨_, override_script.parse_document_to_string hlaw hvalid hsource, _, rfl, _, hruntime, cfg, hparse, rfl⟩
  simp only [Bundle.catalog_ready, hutf8, bind_eq_ok_iff, okOr_eq_ok_iff]
  refine ⟨_, rfl, ?_⟩
  rw [hoffline]
  rfl

end Local

def jsonPlatform : Platform :=
  { Platform.bare with crates := Crates.json }

end zc.service
