import Mathlib.Data.Multiset.MapFold
import Zc.Store.Authority

/-!
# One encoding for one catalog

A catalog without the orders of its profiles and selections determines the canonical bytes, and is
determined by them.
-/

namespace zc.store

open SortBy fsutil

/-- A profile without the order of its selections. -/
structure Profile.Contents where
  key : String
  storage_id : String
  head : String
  generation : UInt64
  selections : Multiset Selection
  auto_controller_secret : Option AutoControllerSecret

def Profile.contents (p : Profile) : Profile.Contents where
  key := p.key
  storage_id := p.storage_id
  head := p.head
  generation := p.desired.generation
  selections := p.desired.selections
  auto_controller_secret := p.auto_controller_secret

/-- A catalog without the orders of its profiles and of their selections. -/
structure Catalog.Contents where
  schema_version : Nat
  sequence : UInt64
  active : Option ActiveIdentity
  profiles : Multiset Profile.Contents

def Catalog.contents (catalog : Catalog) : Catalog.Contents where
  schema_version := catalog.schema_version
  sequence := catalog.sequence
  active := catalog.active
  profiles := catalog.profiles.map Profile.contents

/-! ## Selections -/

theorem validate_selections_of_perm {selections other sorted : List Selection} (hvalid : validate_selections selections = .ok sorted)
    (hperm : other.Perm selections) : validate_selections other = .ok sorted := by
  obtain ⟨rfl, hlt, -⟩ := validate_selections_ok hvalid
  have hsort : sortBy (·.group) other = sortBy (·.group) selections :=
    sortBy_eq_of_perm ((perm_sortBy _ selections).trans hperm.symm) hlt
  rw [validate_selections] at hvalid ⊢
  rwa [hperm.length_eq, hsort]

section Profiles

variable {platform : Platform} {p q p' : Profile}

theorem contents_normal (p : Profile) : p.normal.contents = p.contents := by
  have hselections : (p.normal.desired.selections : Multiset Selection) = p.desired.selections :=
    Multiset.coe_eq_coe.2 (perm_sortBy _ _)
  rw [Profile.contents, hselections]
  rfl

theorem canonical_profile_of_contents (hcanonical : platform.canonical_profile p = .ok p') (hcontents : q.contents = p.contents) :
    platform.canonical_profile q = .ok p' := by
  obtain ⟨key, storage_id, head, ⟨generation, selections⟩, secret⟩ := p
  obtain ⟨key', storage_id', head', ⟨generation', selections'⟩, secret'⟩ := q
  simp only [Profile.contents, Profile.Contents.mk.injEq, Multiset.coe_eq_coe] at hcontents
  obtain ⟨rfl, rfl, rfl, rfl, hperm, rfl⟩ := hcontents
  simp only [Platform.canonical_profile, bind_eq_ok_iff] at hcanonical ⊢
  obtain ⟨_, hkey, bytes, hhead, sorted, hselections, hp⟩ := hcanonical
  exact ⟨(), hkey, bytes, hhead, sorted, validate_selections_of_perm hselections hperm, hp⟩

end Profiles

/-! ## Catalogs -/

section Catalogs

variable {platform : Platform} {catalog catalog' other : Catalog} {bytes : List UInt8}

theorem contents_of_canonical_catalog (hcanonical : platform.canonical_catalog catalog = .ok catalog') :
    catalog'.contents = catalog.contents := by
  obtain ⟨rfl, -, -⟩ := canonical_catalog_ok hcanonical
  have hprofiles : (((sortBy (·.key) catalog.profiles).map Profile.normal).map Profile.contents).Perm
      (catalog.profiles.map Profile.contents) := by
    rw [List.map_map, show Profile.contents ∘ Profile.normal = Profile.contents from funext contents_normal]
    exact (perm_sortBy _ _).map _
  rw [Catalog.contents, Multiset.coe_eq_coe.2 hprofiles]
  rfl

theorem perm_of_contents (hcontents : other.contents = catalog.contents) :
    (other.profiles.map Profile.contents).Perm (catalog.profiles.map Profile.contents) :=
  Multiset.coe_eq_coe.1 (congrArg Catalog.Contents.profiles hcontents)

/-- No key is repeated, whatever the order. -/
theorem sorted_of_contents (hcontents : other.contents = catalog.contents)
    (hlt : (sortBy (·.key) catalog.profiles).Pairwise fun a b => a.key < b.key) :
    (sortBy (·.key) other.profiles).Pairwise fun a b => a.key < b.key := by
  have hkeys : (other.profiles.map Profile.key).Perm (catalog.profiles.map Profile.key) := by
    have hperm := (perm_of_contents hcontents).map Profile.Contents.key
    rwa [List.map_map, List.map_map] at hperm
  have hnodup : (other.profiles.map Profile.key).Nodup := by
    rw [hkeys.nodup_iff, ← ((perm_sortBy Profile.key catalog.profiles).map Profile.key).nodup_iff, List.Nodup, List.pairwise_map]
    exact hlt.imp ne_of_lt
  rw [← ((perm_sortBy Profile.key other.profiles).map Profile.key).nodup_iff, List.Nodup, List.pairwise_map] at hnodup
  exact (pairwise_sortBy _ _).imp₂ (fun _ _ => lt_of_le_of_ne) hnodup

/-- In order, the profiles of catalogs of the same contents match one by one. -/
theorem map_contents_sorted (hcontents : other.contents = catalog.contents)
    (hlt : (sortBy (·.key) catalog.profiles).Pairwise fun a b => a.key < b.key) :
    (sortBy (·.key) other.profiles).map Profile.contents = (sortBy (·.key) catalog.profiles).map Profile.contents := by
  have hperm : ((sortBy (·.key) catalog.profiles).map Profile.contents).Perm ((sortBy (·.key) other.profiles).map Profile.contents) :=
    ((perm_sortBy _ _).map _).trans ((perm_of_contents hcontents).symm.trans ((perm_sortBy _ _).map _).symm)
  have hsorted : ((sortBy (·.key) other.profiles).map Profile.contents).Pairwise fun a b => a.key ≤ b.key :=
    List.pairwise_map.2 (pairwise_sortBy _ _)
  rw [← sortBy_eq_self hsorted]
  exact sortBy_eq_of_perm hperm (List.pairwise_map.2 hlt)

/-- Catalogs of the same contents have the same canonical form. -/
theorem canonical_catalog_of_contents (hcanonical : platform.canonical_catalog catalog = .ok catalog')
    (hcontents : other.contents = catalog.contents) : platform.canonical_catalog other = .ok catalog' := by
  simp only [Platform.canonical_catalog, bind_eq_ok_iff, ensure_eq_ok_iff] at hcanonical ⊢
  obtain ⟨_, hschema, _, hdistinct, profiles, hprofiles, _, hactive, hcatalog⟩ := hcanonical
  have hlt := (neighbours_ne_iff (pairwise_sortBy _ catalog.profiles)).1 hdistinct
  have hdistinct' := (neighbours_ne_iff (pairwise_sortBy _ other.profiles)).2 (sorted_of_contents hcontents hlt)
  have hprofiles' : (sortBy (·.key) other.profiles).mapM platform.canonical_profile = .ok profiles :=
    Traverse.mapM_of_map_eq (fun _ _ _ heq hp => canonical_profile_of_contents hp heq) (map_contents_sorted hcontents hlt) hprofiles
  obtain ⟨schema_version, sequence, active, _⟩ := catalog
  obtain ⟨schema_version', sequence', active', _⟩ := other
  obtain ⟨rfl, rfl, rfl, -⟩ := Catalog.Contents.mk.inj hcontents
  exact ⟨(), hschema, (), hdistinct', profiles, hprofiles', (), hactive, hcatalog⟩

theorem canonical_of_contents (hcanonical : platform.canonical catalog = .ok bytes) (hcontents : other.contents = catalog.contents) :
    platform.canonical other = .ok bytes := by
  simp only [Platform.canonical, bind_eq_ok_iff] at hcanonical ⊢
  obtain ⟨catalog', hcatalog, hbytes⟩ := hcanonical
  exact ⟨catalog', canonical_catalog_of_contents hcatalog hcontents, hbytes⟩

/-- Canonical bytes are those of one catalog that is stored as it is. -/
theorem exists_stored (hcanonical : platform.canonical catalog = .ok bytes) :
    ∃ stored : Catalog, stored.Stored platform ∧ stored.contents = catalog.contents ∧ bytes = line stored.encode := by
  obtain ⟨stored, hcatalog, hbytes, -, -, -, hfits⟩ := canonical_ok hcanonical
  exact ⟨stored, ⟨(canonical_catalog_ok hcatalog).2.2, hbytes ▸ hfits⟩, contents_of_canonical_catalog hcatalog, hbytes⟩

theorem contents_of_canonical (hcanonical : platform.canonical catalog = .ok bytes) (hother : platform.canonical other = .ok bytes) :
    other.contents = catalog.contents := by
  obtain ⟨stored, hstored, hcontents, rfl⟩ := exists_stored hcanonical
  obtain ⟨stored', hstored', hcontents', heq⟩ := exists_stored hother
  rw [← hcontents, ← hcontents', hstored.eq_of_line hstored' heq]

/-- Bytes that `canonical` returns are read back as a catalog of the same contents, whose canonical bytes they are,
    and they are the canonical bytes of exactly the catalogs of these contents. -/
theorem canonical_fixpoint (hcanonical : platform.canonical catalog = .ok bytes) :
    (∀ fs, FileAt fs 0 "state-v2.json" bytes → ∃ found, platform.inspect fs = .ok (platform.token (some bytes) catalog.sequence, found) ∧
      found.contents = catalog.contents ∧ platform.canonical found = .ok bytes) ∧
    ∀ other, platform.canonical other = .ok bytes ↔ other.contents = catalog.contents := by
  refine ⟨fun fs hfile => ?_, fun other => ⟨contents_of_canonical hcanonical, canonical_of_contents hcanonical⟩⟩
  obtain ⟨stored, hstored, hcontents, rfl⟩ := exists_stored hcanonical
  have hinspect := inspect_of_stored hstored hfile
  rw [show stored.sequence = catalog.sequence from congrArg Catalog.Contents.sequence hcontents] at hinspect
  exact ⟨stored, hinspect, hcontents, hstored.canonical⟩

end Catalogs

/-- The catalog of one profile is read back. -/
theorem lone_fixpoint : ∃ bytes, Platform.bare.canonical (Catalog.lone .bare ⟨"home", hex (List.replicate 16 0)⟩) = .ok bytes ∧
    ∃ found, Platform.bare.inspect (stateFs bytes) = .ok (Platform.bare.token (some bytes) 1, found) ∧
      Platform.bare.canonical found = .ok bytes := by
  have hstored : (Catalog.lone .bare ⟨"home", hex (List.replicate 16 0)⟩).Stored .bare :=
    Catalog.stored_lone .bare (by decide) (unhex_hex (List.replicate 16 0))
  obtain ⟨hread, -⟩ := canonical_fixpoint hstored.canonical
  obtain ⟨found, hinspect, -, hcanonical⟩ := hread _ (fileAt_stateFs _)
  exact ⟨_, hstored.canonical, found, hinspect, hcanonical⟩

end zc.store
