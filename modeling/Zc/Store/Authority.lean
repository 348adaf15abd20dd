import Zc.Fsutil.Calls
import Zc.Json.Read
import Zc.Store.CatalogText
import Zc.Store.Operations

/-!
# The state file

`inspect` accepts the canonical bytes of a catalog and nothing else, so the bytes of the state file
and the catalog read from it determine each other.
-/

namespace zc.store

open SortBy fsutil

variable {platform : Platform} {fs : Fs} {bytes : List UInt8} {token : StateToken} {catalog : Catalog}

/-- A catalog that `canonical` leaves as it is, within the size limit. -/
structure Catalog.Stored (platform : Platform) (catalog : Catalog) : Prop where
  self : platform.canonical_catalog catalog = .ok catalog
  fits : (line catalog.encode).length ≤ CATALOG_LIMIT

theorem Catalog.Stored.form (hstored : catalog.Stored platform) : catalog.Canonical platform :=
  (canonical_catalog_ok hstored.self).2.1

theorem Catalog.Stored.canonical (hstored : catalog.Stored platform) : platform.canonical catalog = .ok (line catalog.encode) := by
  simp only [Platform.canonical, bind_eq_ok_iff, ensure_eq_ok_iff, decide_eq_true_eq]
  exact ⟨catalog, hstored.self, (), hstored.fits, rfl⟩

theorem from_slice_catalog (platform : Platform) (hschema : catalog.schema_version = 2) :
    platform.from_slice (line catalog.encode) = some catalog.encode ∧ Catalog.decode catalog.encode = some catalog :=
  ⟨platform.from_slice_line _ (catalog.plain_encode.mono (by decide)), Catalog.decode_encode (by rw [hschema]; decide)⟩

/-- Equal bytes are equal catalogs. -/
theorem Catalog.Stored.eq_of_line {catalog' : Catalog} (hstored : catalog.Stored platform) (hstored' : catalog'.Stored platform)
    (heq : line catalog.encode = line catalog'.encode) : catalog = catalog' := by
  have hslice := from_slice_catalog platform hstored.form.schema
  have hslice' := from_slice_catalog platform hstored'.form.schema
  rw [heq, hslice'.1] at hslice
  have hencode := Option.some.inj hslice.1
  rw [← hencode] at hslice
  exact Option.some.inj (hslice.2.symm.trans hslice'.2)

theorem decode_state_eq_ok_iff : platform.decode_state bytes = .ok (token, catalog) ↔
    catalog.Stored platform ∧ bytes = line catalog.encode ∧ token = platform.token (some bytes) catalog.sequence := by
  unfold Platform.decode_state
  simp only [bind_eq_ok_iff, okOr_eq_ok_iff, ensure_eq_ok_iff, mapErr_eq_ok_iff, beq_iff_eq]
  constructor
  · rintro ⟨document, hslice, schema, hschema, _, rfl, found, hdecode, encoded, hcanonical, _, rfl, hpure⟩
    obtain ⟨rfl, rfl⟩ := Prod.mk.inj (Except.ok.inj hpure)
    obtain ⟨catalog', hcatalog, rfl, hslice', hdecode', hself, hfits⟩ := canonical_ok hcanonical
    obtain rfl := Option.some.inj (hslice.symm.trans hslice')
    obtain rfl := Option.some.inj (hdecode.symm.trans hdecode')
    exact ⟨⟨hcatalog, hfits⟩, rfl, rfl⟩
  · rintro ⟨hstored, rfl, rfl⟩
    have hschema := hstored.form.schema
    have hslice := from_slice_catalog platform hschema
    refine ⟨_, hslice.1, 2, ?_, (), rfl, catalog, hslice.2, _, hstored.canonical, (), rfl, rfl⟩
    have hmember : Platform.last_member catalog.encode "schema_version" = some (number catalog.schema_version) := by
      simp [Platform.last_member, Catalog.encode, Value.as_object, List.lookup_cons]
    rw [hmember, hschema]
    rfl

theorem read_state_ok (hfile : FileAt fs 0 "state-v2.json" bytes) (hfits : bytes.length ≤ CATALOG_LIMIT) :
    fs.read 0 "state-v2.json" CATALOG_LIMIT = .ok bytes :=
  read_eq_ok_iff.2 ⟨by decide, hfile, hfits⟩

/-- Without a state file there is only the empty catalog. -/
theorem inspect_eq_ok (hinspect : platform.inspect fs = .ok (token, catalog)) :
    (∃ bytes, FileAt fs 0 "state-v2.json" bytes ∧ platform.decode_state bytes = .ok (token, catalog)) ∨
      catalog = Platform.empty_catalog ∧ token = platform.token none 0 := by
  unfold Platform.inspect at hinspect
  split at hinspect
  · next bytes hread => exact .inl ⟨bytes, (read_eq_ok_iff.1 hread).2.1, hinspect⟩
  · simp only [Platform.missing_state, bind_eq_ok_iff] at hinspect
    obtain ⟨_, -, hpure⟩ := hinspect
    obtain ⟨rfl, rfl⟩ := Prod.mk.inj (Except.ok.inj hpure)
    exact .inr ⟨rfl, rfl⟩
  · cases hinspect

theorem inspect_of_stored (hstored : catalog.Stored platform) (hfile : FileAt fs 0 "state-v2.json" (line catalog.encode)) :
    platform.inspect fs = .ok (platform.token (some (line catalog.encode)) catalog.sequence, catalog) := by
  unfold Platform.inspect
  rw [read_state_ok hfile hstored.fits]
  exact decode_state_eq_ok_iff.2 ⟨hstored, rfl, rfl⟩

/-! ## One active profile -/

/-- The catalog of one profile that is active and has no selections. -/
def Catalog.lone (platform : Platform) (active : ActiveIdentity) : Catalog where
  schema_version := 2
  sequence := 1
  active := some active
  profiles := [⟨active.key, platform.storage_id active.key, active.revision, ⟨1, []⟩, none⟩]

theorem length_escape_le (c : Char) : (escape c).length ≤ 6 := by
  unfold escape
  repeat' split
  all_goals simp [hexPair]

theorem length_quote_le (s : String) : (quote s).length ≤ 6 * str.len s + 2 := by
  have hchars : ∀ chars : List Char, (chars.flatMap escape).length ≤ 6 * String.utf8Len chars := by
    intro chars
    induction chars with
    | nil => exact Nat.le_refl _
    | cons c chars ih =>
      have hc := length_escape_le c
      have hsize := c.utf8Size_pos
      rw [List.flatMap_cons, List.length_append, String.utf8Len_cons]
      omega
  have hlen := hchars s.toList
  rw [← String.utf8ByteSize_ofList, String.ofList_toList] at hlen
  change _ ≤ 6 * str.len s at hlen
  rw [quote, List.length_append, List.length_cons, List.length_singleton]
  omega

theorem Catalog.stored_lone (platform : Platform) {active : ActiveIdentity} {head : List UInt8}
    (hkey : stored_key active.key = true) (hrevision : unhex active.revision 16 = .ok head) :
    (Catalog.lone platform active).Stored platform where
  self := by
    have hprofile : platform.canonical_profile ⟨active.key, platform.storage_id active.key, active.revision, ⟨1, []⟩, none⟩ =
        .ok ⟨active.key, platform.storage_id active.key, active.revision, ⟨1, []⟩, none⟩ := by
      simp only [Platform.canonical_profile, bind_eq_ok_iff, ensure_eq_ok_iff, Bool.and_eq_true, beq_iff_eq]
      exact ⟨(), ⟨hkey, trivial⟩, head, hrevision, [], rfl, rfl⟩
    simp only [Platform.canonical_catalog, Catalog.lone, bind_eq_ok_iff, ensure_eq_ok_iff]
    refine ⟨(), rfl, (), rfl, _, Traverse.mapM_eq_ok_iff.2 (.cons hprofile .nil), (), ?_, rfl⟩
    simp only [Option.all_some, List.any_cons, beq_self_eq_true, Bool.and_self, Bool.true_or]
  fits := by
    have hlen := serde_json.length_to_vec_le (Catalog.lone platform active).encode
    have hquote_key := length_quote_le active.key
    have hquote_id := length_quote_le (platform.storage_id active.key)
    have hquote_revision := length_quote_le active.revision
    have hlen_key : str.len active.key ≤ 255 := by
      simp only [stored_key, Bool.and_eq_true, decide_eq_true_eq] at hkey
      exact hkey.1.1
    have hlen_id : str.len (platform.storage_id active.key) = 64 := by
      rw [Platform.storage_id, len_hex, platform.length_sha256]
    have hlen_revision : str.len active.revision = 32 := by
      simp only [unhex, bind_eq_ok_iff, ensure_eq_ok_iff, Bool.and_eq_true, beq_iff_eq] at hrevision
      obtain ⟨_, ⟨hlen, -⟩, -⟩ := hrevision
      exact hlen
    have hnames : ∀ name ∈ ["schema_version", "sequence", "active", "key", "revision", "profiles", "storage_id", "head", "desired",
        "generation", "selections"], (quote name).length ≤ 20 := by
      decide +kernel
    have hone : (Nat.toDigits 10 (1 : UInt64).toNat).length = 1 := rfl
    have htwo : (Nat.toDigits 10 (UInt64.ofNat 2).toNat).length = 1 := rfl
    simp only [List.forall_mem_cons] at hnames
    have htext : (Catalog.lone platform active).encode.text.length ≤ 10000 := by
      simp only [Catalog.lone, Catalog.encode, Profile.encode, Desired.encode, ActiveIdentity.encode, encode_option, number,
        Value.text, Value.moreItems, Value.moreEntries, Number.text, List.map_cons, List.map_nil, List.append_nil,
        List.length_append, List.length_cons, List.length_nil, List.cons_append, hone, htwo]
      omega
    rw [line, List.length_append, List.length_singleton, CATALOG_LIMIT]
    omega

/-- A root with nothing but a state file. -/
def stateFs (bytes : List UInt8) : Fs :=
  (Fs.initial.addFile 0 "state-v2.json" Nat.one_pos).append Fs.initial.next bytes

theorem fileAt_stateFs (bytes : List UInt8) : FileAt (stateFs bytes) 0 "state-v2.json" bytes :=
  fileAt_addFile rfl Nat.one_pos bytes

/-- Libraries that find nothing, and a digest that is always the same. -/
def Platform.bare : Platform where
  crates := {
    json_document := fun _ => none
    yaml_documents := fun _ => .ok []
    parse_net := fun _ => none
    contains := fun _ _ => false
    parse_url := fun _ => none
    server_name := fun _ => false }
  sha256 _ := List.replicate 32 0
  length_sha256 _ := rfl
  from_slice := serde_json.readDocument
  from_slice_line _ hplain := serde_json.readDocument_line hplain

end zc.store
