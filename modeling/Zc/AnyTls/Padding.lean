import Zc.AnyTls.Frame
import Zc.Hex
import Zc.Io
import Zc.Lib.Poll
import Zc.Lib.Traverse
import Mathlib.Data.Int.CardIntervalMod
import Mathlib.SetTheory.Cardinal.Finite

/-!
# AnyTLS padding schemes

A scheme splits the frames of its first groups into packets of random sizes and fills up with
padding frames. The random source is the list of what its further calls give, a failure included;
after the last one it fails.
-/

namespace zc.anytls

open Poll (Act)

def MAX_TEXT : Nat := 4096
def MAX_FRAME : Nat := 65535
def MAX_STOP : Nat := 32
def MAX_PADDING : Nat := 65536
def MAX_HEARTS : Nat := 32

def invalid : io.Error :=
  .new .InvalidData "invalid AnyTLS session"

def closed : io.Error :=
  .new .BrokenPipe "AnyTLS stream is closed"

/-- The bounds of a packet, as `Padding::parse` checks them. -/
structure Size where
  min : Nat
  max : Nat
  pos : 0 < min
  le : min ≤ max
  fits : max ≤ 16384

inductive Step where
  | Size (size : Size)
  | Check

structure Padding where
  md5 : String
  stop : Nat
  groups : List (Nat × List Step)

/-! ## Parsing -/

/-- One line of a list of fields. -/
def add_field (fields : List (String × String)) (line : String) : Except io.Error (List (String × String)) :=
  match str.splitOnce line '=' with
  | none => .error invalid
  | some (key, value) =>
    if key = "" ∨ value = "" ∨ line.toList.any str.isControl ∨ fields.length = 33 ∨ (fields.lookup key).isSome then
      .error invalid
    else .ok (fields ++ [(key, value)])

def fields (raw : List UInt8) : Except io.Error (List (String × String)) :=
  if raw.isEmpty ∨ raw.length > MAX_TEXT then .error invalid
  else match str.from_utf8 raw with
    | none => .error invalid
    | some text => (str.splitTerminator text '\n').foldlM add_field []

def number (text : String) : Except io.Error Nat :=
  if text = "" ∨ ¬ text.toList.all Char.isDigit then .error invalid
  else if str.decimal text < 2 ^ 64 then .ok (str.decimal text)
  else .error invalid

/-- Authentication stays within one TLS record and the packet buffer of the reference. -/
def size_limit (group : Nat) : Nat :=
  if group = 0 then 4096 - 34 else 16384

theorem size_limit_le (group : Nat) : size_limit group ≤ 16384 := by
  rw [size_limit]
  split_ifs
  · decide
  · exact Nat.le_refl _

/-- One range of sizes, with the padding counted so far. -/
def parse_size (group overhead : Nat) (step : String) : Except io.Error (Size × Nat) :=
  match str.splitOnce step '-' with
  | none => .error invalid
  | some (min, max) => do
    let min ← number min
    let max ← number max
    if h : 0 < min ∧ min ≤ max ∧ max ≤ size_limit group then
      if overhead + (max + 7) > MAX_PADDING then .error invalid
      else .ok (⟨min, max, h.1, h.2.1, h.2.2.trans (size_limit_le group)⟩, overhead + (max + 7))
    else .error invalid

def parse_step (group : Nat) (parsed : List Step × Nat) (step : String) : Except io.Error (List Step × Nat) :=
  if parsed.1.length = 16 then .error invalid
  else if step = "c" ∧ group ≠ 0 then .ok (parsed.1 ++ [.Check], parsed.2)
  else do
    let (size, overhead) ← parse_size group parsed.2 step
    .ok (parsed.1 ++ [.Size size], overhead)

def parse_group (stop : Nat) (parsed : List (Nat × List Step) × Nat) (field : String × String) :
    Except io.Error (List (Nat × List Step) × Nat) := do
  let group ← number field.1
  if group ≥ stop ∨ field.1 ≠ toString group then .error invalid
  else do
    let (steps, overhead) ← (str.split field.2 ',').foldlM (parse_step group) ([], parsed.2)
    if group = 0 ∧ steps.length ≠ 1 then .error invalid
    else .ok (parsed.1 ++ [(group, steps)], overhead)

/-- `Padding::parse` with the digest function `md5`. All its errors are the same, so the order in which the
    source walks its map of fields does not show. -/
def Padding.parse (md5 : List UInt8 → Vector UInt8 16) (raw : List UInt8) : Except io.Error Padding := do
  let fields ← fields raw
  match fields.lookup "stop" with
  | none => .error invalid
  | some stop => do
    let stop ← number stop
    if stop < 1 ∨ stop > MAX_STOP then .error invalid
    else do
      let (groups, _) ← (fields.filter fun field => field.1 ≠ "stop").foldlM (parse_group stop) ([], 0)
      .ok ⟨hex (md5 raw).toList, stop, groups⟩

/-! ## Packets -/

def unavailable : io.Error :=
  .new .Other "AnyTLS random source unavailable"

/-- Draws until a number is below the bound. -/
def draw (bound : Nat) : Act (List (Option UInt32)) io.Error UInt32
  | [] => (.error (.failed unavailable), [])
  | none :: draws => (.error (.failed unavailable), draws)
  | some n :: draws => if n.toNat < bound then (.ok n, draws) else draw bound draws

def random_size (min max : Nat) : Act (List (Option UInt32)) io.Error Nat :=
  if min = max then pure min
  else do
    let span := max - min
    let n ← draw (4294967295 - 4294967295 % span)
    pure (min + n.toNat % span)

namespace Padding

def auth_size (padding : Padding) : Act (List (Option UInt32)) io.Error Nat :=
  match (padding.groups.lookup 0).bind List.head? with
  | some (.Size size) => random_size size.min size.max
  | _ => pure 0

/-- The rest of a group, split along the steps. -/
def split : List Step → List UInt8 → Act (List (Option UInt32)) io.Error (List (List UInt8))
  | [], rest => pure (if rest.isEmpty then [] else [rest])
  | .Check :: steps, rest =>
    -- the source leaves the loop here
    if rest.isEmpty then pure [] else split steps rest
  | .Size size :: steps, rest => do
    let size ← random_size size.min size.max
    if rest.length > size then do
      let packets ← split steps (rest.drop size)
      pure (rest.take size :: packets)
    else if !rest.isEmpty then do
      let packet :=
        if size > rest.length + 7 then append_frame rest 0 0 (List.replicate (size - rest.length - 7) 0) else rest
      let packets ← split steps []
      pure (packet :: packets)
    else do
      -- here the size is that of the body
      let packets ← split steps []
      pure (append_frame [] 0 0 (List.replicate size 0) :: packets)

def steps (padding : Padding) (group : Nat) : List Step :=
  if group < padding.stop then (padding.groups.lookup group).getD [] else []

def packets (padding : Padding) (group : Nat) (data : List UInt8) : Act (List (Option UInt32)) io.Error (List (List UInt8)) :=
  split (padding.steps group) data

end Padding

/-! ## What the packets hold -/

def Frame.isPadding (frame : Frame) : Prop :=
  frame.cmd = 0 ∧ frame.id = 0

/-- A padding frame. -/
def Frame.padding (size : Nat) (hsize : size ≤ 16384) : Frame :=
  ⟨0, 0, List.replicate size 0, by rw [List.length_replicate]; omega⟩

/-- The bytes that a step can add. -/
def Step.overhead : Step → Nat
  | .Size size => size.max + 7
  | .Check => 0

def overhead (steps : List Step) : Nat :=
  (steps.map Step.overhead).sum

theorem length_bytes (frame : Frame) : frame.bytes.length = frame.body.length + 7 := by
  simp [Frame.bytes, append_frame, be32, be16]

/-- The packets are not empty, and hold the data and then padding within the bounds of the steps. -/
structure Packed (steps : List Step) (data : List UInt8) (packets : List (List UInt8)) (paddings : List Frame) : Prop where
  flatten : packets.flatten = data ++ encode paddings
  nonempty : ∀ packet ∈ packets, packet ≠ []
  padding : ∀ frame ∈ paddings, frame.isPadding
  count : packets.length ≤ steps.length + (if data = [] then 0 else 1)
  added : (encode paddings).length ≤ overhead steps

variable {draws : List (Option UInt32)}

theorem wp_draw {bound : Nat} :
    Act.wp (draw bound) (fun n _ => n.toNat < bound) (fun stop _ => stop = .failed unavailable) draws := by
  induction draws with
  | nil => rfl
  | cons answer draws ih =>
    cases answer with
    | none => rfl
    | some n =>
      unfold Act.wp draw
      split_ifs with hlt
      · exact hlt
      · exact ih

theorem wp_random_size {min max : Nat} (hle : min ≤ max) :
    Act.wp (random_size min max) (fun n _ => min ≤ n ∧ n ≤ max) (fun stop _ => stop = .failed unavailable) draws := by
  unfold random_size
  split_ifs with heq
  · exact ⟨Nat.le_refl _, hle⟩
  · rw [Act.wp_bind]
    refine Act.wp_mono wp_draw ?_ fun _ _ h => h
    intro n draws' _
    have hmod := Nat.mod_lt n.toNat (Nat.sub_pos_of_lt (Nat.lt_of_le_of_ne hle heq))
    exact ⟨Nat.le_add_right _ _, by omega⟩

variable {steps : List Step} {size : Size} {packets : List (List UInt8)} {paddings : List Frame}

/-- A packet of data before the rest. -/
theorem Packed.cons_data {front rest : List UInt8} (hpacked : Packed steps rest packets paddings) (hfront : front ≠ [])
    (hrest : rest ≠ []) :
    Packed (.Size size :: steps) (front ++ rest) (front :: packets) paddings where
  flatten := by rw [List.flatten_cons, hpacked.flatten, List.append_assoc]
  nonempty := by
    intro packet hpacket
    rcases List.mem_cons.1 hpacket with rfl | hpacket
    · exact hfront
    · exact hpacked.nonempty packet hpacket
  padding := hpacked.padding
  count := by
    have hcount := hpacked.count
    rw [if_neg hrest] at hcount
    rw [if_neg (List.append_ne_nil_of_left_ne_nil hfront _), List.length_cons, List.length_cons]
    omega
  added := by
    have hadded := hpacked.added
    rw [overhead, List.map_cons, List.sum_cons]
    exact hadded.trans (Nat.le_add_left _ _)

/-- The last data, filled up, before packets of padding only. -/
theorem Packed.cons_last {data : List UInt8} {last : List Frame} (hpacked : Packed steps [] packets paddings)
    (hpadding : ∀ frame ∈ last, frame.isPadding) (hne : data ++ encode last ≠ [])
    (hadded : (encode last).length ≤ size.max + 7) :
    Packed (.Size size :: steps) data ((data ++ encode last) :: packets) (last ++ paddings) where
  flatten := by rw [List.flatten_cons, hpacked.flatten, List.nil_append, encode_append, List.append_assoc]
  nonempty := by
    intro packet hpacket
    rcases List.mem_cons.1 hpacket with rfl | hpacket
    · exact hne
    · exact hpacked.nonempty packet hpacket
  padding := by
    intro frame hframe
    rcases List.mem_append.1 hframe with hframe | hframe
    · exact hpadding frame hframe
    · exact hpacked.padding frame hframe
  count := by
    have hcount := hpacked.count
    rw [if_pos rfl] at hcount
    rw [List.length_cons, List.length_cons]
    omega
  added := by
    have hmore := hpacked.added
    rw [encode_append, List.length_append, overhead, List.map_cons, List.sum_cons]
    exact Nat.add_le_add hadded hmore

theorem packed_nil (data : List UInt8) : Packed [] data (if data.isEmpty then [] else [data]) [] := by
  cases data with
  | nil => exact ⟨rfl, nofun, nofun, Nat.le_refl _, Nat.le_refl _⟩
  | cons byte data =>
    refine ⟨rfl, ?_, nofun, Nat.le_refl _, Nat.le_refl _⟩
    intro packet hpacket
    obtain rfl := List.mem_singleton.1 hpacket
    exact List.cons_ne_nil _ _

theorem Packed.cons_check {data : List UInt8} (hpacked : Packed steps data packets paddings) :
    Packed (.Check :: steps) data packets paddings where
  flatten := hpacked.flatten
  nonempty := hpacked.nonempty
  padding := hpacked.padding
  count := by
    have hcount := hpacked.count
    rw [List.length_cons]
    omega
  added := by
    have hadded := hpacked.added
    rw [overhead, List.map_cons, List.sum_cons]
    exact hadded.trans (Nat.le_add_left _ _)

/-- Splitting loses nothing, whatever the random source gives. -/
theorem wp_split (steps : List Step) (data : List UInt8) (draws : List (Option UInt32)) :
    Act.wp (Padding.split steps data) (fun packets _ => ∃ paddings, Packed steps data packets paddings)
      (fun stop _ => stop = .failed unavailable) draws := by
  induction steps generalizing data draws with
  | nil => exact ⟨[], packed_nil data⟩
  | cons step steps ih =>
    cases step with
    | Check =>
      rw [Padding.split]
      split_ifs with hempty
      · obtain rfl := List.isEmpty_iff.1 hempty
        exact ⟨[], rfl, nofun, nofun, Nat.zero_le _, Nat.zero_le _⟩
      · refine Act.wp_mono (ih data draws) ?_ fun _ _ h => h
        rintro packets _ ⟨paddings, hpacked⟩
        exact ⟨paddings, hpacked.cons_check⟩
    | Size size =>
      rw [Padding.split, Act.wp_bind]
      refine Act.wp_mono (wp_random_size size.le) ?_ fun _ _ h => h
      rintro n draws' ⟨hmin, hmax⟩
      have hpos := size.pos
      have hfits := size.fits
      by_cases hlong : data.length > n
      · -- a full packet of data
        have htake : data.take n ≠ [] := by
          rw [← List.length_pos_iff, List.length_take]
          omega
        have hdrop : data.drop n ≠ [] := by
          rw [← List.length_pos_iff, List.length_drop]
          omega
        rw [if_pos hlong, Act.wp_bind]
        refine Act.wp_mono (ih (data.drop n) draws') ?_ fun _ _ h => h
        rintro packets _ ⟨paddings, hpacked⟩
        have hcons : Packed (.Size size :: steps) (data.take n ++ data.drop n) (data.take n :: packets) paddings :=
          hpacked.cons_data htake hdrop
        rw [List.take_append_drop] at hcons
        exact ⟨paddings, hcons⟩
      rw [if_neg hlong]
      by_cases hempty : data = []
      · -- padding only
        subst hempty
        rw [if_neg (by decide), Act.wp_bind]
        refine Act.wp_mono (ih [] draws') ?_ fun _ _ h => h
        rintro packets _ ⟨paddings, hpacked⟩
        rw [Act.wp_pure]
        have hbytes : append_frame [] 0 0 (List.replicate n 0) = [] ++ encode [Frame.padding n (by omega)] := by
          rw [encode_cons, encode_nil, List.append_nil]
          exact append_frame_eq [] (Frame.padding n (by omega))
        have hlength : (encode [Frame.padding n (by omega)]).length = n + 7 := by
          rw [encode_cons, encode_nil, List.append_nil, length_bytes, Frame.padding, List.length_replicate]
        rw [hbytes]
        refine ⟨[Frame.padding n (by omega)] ++ paddings, hpacked.cons_last ?_ ?_ (by omega)⟩
        · intro frame hframe
          obtain rfl := List.mem_singleton.1 hframe
          exact ⟨rfl, rfl⟩
        · rw [← List.length_pos_iff, List.nil_append]
          omega
      · -- the last data
        have hsome : (!data.isEmpty) = true := by
          rwa [Bool.not_eq_true', ← Bool.not_eq_true, List.isEmpty_iff]
        have hne : ∀ last, data ++ encode last ≠ [] := fun last => List.append_ne_nil_of_left_ne_nil hempty _
        rw [if_pos hsome, Act.wp_bind]
        refine Act.wp_mono (ih [] draws') ?_ fun _ _ h => h
        rintro packets _ ⟨paddings, hpacked⟩
        rw [Act.wp_pure]
        by_cases hroom : n > data.length + 7
        · have hbytes : append_frame data 0 0 (List.replicate (n - data.length - 7) 0) =
              data ++ encode [Frame.padding (n - data.length - 7) (by omega)] := by
            rw [encode_cons, encode_nil, List.append_nil]
            exact append_frame_eq data (Frame.padding (n - data.length - 7) (by omega))
          rw [if_pos hroom, hbytes]
          refine ⟨[Frame.padding (n - data.length - 7) (by omega)] ++ paddings, hpacked.cons_last ?_ (hne _) ?_⟩
          · intro frame hframe
            obtain rfl := List.mem_singleton.1 hframe
            exact ⟨rfl, rfl⟩
          · rw [encode_cons, encode_nil, List.append_nil, length_bytes, Frame.padding, List.length_replicate]
            omega
        · have hcons : Packed (.Size size :: steps) data ((data ++ encode []) :: packets) ([] ++ paddings) :=
            hpacked.cons_last nofun (hne []) (Nat.zero_le _)
          rw [encode_nil, List.append_nil] at hcons
          rw [if_neg hroom]
          exact ⟨paddings, hcons⟩

/-! ## The bounds of parsed schemes -/

theorem overhead_append (steps steps' : List Step) : overhead (steps ++ steps') = overhead steps + overhead steps' := by
  rw [overhead, List.map_append, List.sum_append]
  rfl

/-- What the parser admits as the steps of a group. -/
structure Admitted (group : Nat) (steps : List Step) : Prop where
  length : steps.length ≤ 16
  added : overhead steps ≤ MAX_PADDING
  sizes : ∀ size, .Size size ∈ steps → size.max ≤ size_limit group

theorem parse_size_bounds {group total : Nat} {step : String} {result : Size × Nat} (hsize : parse_size group total step = .ok result) :
    result.1.max ≤ size_limit group ∧ result.2 = total + (result.1.max + 7) ∧ result.2 ≤ MAX_PADDING := by
  unfold parse_size at hsize
  cases hsplit : str.splitOnce step '-' with
  | none =>
    rw [hsplit] at hsize
    cases hsize
  | some pair =>
    rw [hsplit] at hsize
    simp only [bind_eq_ok_iff] at hsize
    obtain ⟨min, -, max, -, hsize⟩ := hsize
    split_ifs at hsize with hrange hover
    obtain rfl := Except.ok.inj hsize
    exact ⟨hrange.2.2, rfl, Nat.le_of_not_lt hover⟩

theorem parse_step_bounds {group start : Nat} {parsed next : List Step × Nat} {step : String} (hparsed : Admitted group parsed.1)
    (hsum : parsed.2 = start + overhead parsed.1) (hmax : parsed.2 ≤ MAX_PADDING) (hstep : parse_step group parsed step = .ok next) :
    Admitted group next.1 ∧ next.2 = start + overhead next.1 ∧ next.2 ≤ MAX_PADDING := by
  have hlength := hparsed.length
  unfold parse_step at hstep
  split_ifs at hstep with hfull hcheck
  · obtain rfl := Except.ok.inj hstep
    have hsame : overhead (parsed.1 ++ [.Check]) = overhead parsed.1 := overhead_append _ _
    refine ⟨⟨?_, ?_, ?_⟩, hsum.trans (congrArg (start + ·) hsame.symm), hmax⟩
    · rw [List.length_append, List.length_singleton]
      omega
    · exact hsame.trans_le hparsed.added
    · intro size hmem
      rcases List.mem_append.1 hmem with hmem | hmem
      · exact hparsed.sizes size hmem
      · cases List.mem_singleton.1 hmem
  · simp only [bind_eq_ok_iff] at hstep
    obtain ⟨⟨size, total⟩, hsize, hstep⟩ := hstep
    obtain rfl := Except.ok.inj hstep
    obtain ⟨hlimit, htotal, hmax⟩ := parse_size_bounds hsize
    have hmore : total = start + overhead (parsed.1 ++ [.Size size]) := by
      rw [overhead_append, ← Nat.add_assoc, ← hsum]
      exact htotal
    refine ⟨⟨?_, ?_, ?_⟩, hmore, hmax⟩
    · rw [List.length_append, List.length_singleton]
      omega
    · exact (Nat.le_add_left _ start).trans (hmore ▸ hmax)
    · intro other hmem
      rcases List.mem_append.1 hmem with hmem | hmem
      · exact hparsed.sizes other hmem
      · cases List.mem_singleton.1 hmem
        exact hlimit

theorem parse_group_bounds {stop : Nat} {parsed next : List (Nat × List Step) × Nat} {field : String × String}
    (hparsed : parsed.2 ≤ MAX_PADDING ∧ ∀ entry ∈ parsed.1, Admitted entry.1 entry.2) (hgroup : parse_group stop parsed field = .ok next) :
    next.2 ≤ MAX_PADDING ∧ ∀ entry ∈ next.1, Admitted entry.1 entry.2 := by
  obtain ⟨hmax, hentries⟩ := hparsed
  simp only [parse_group, bind_eq_ok_iff] at hgroup
  obtain ⟨group, -, hgroup⟩ := hgroup
  split_ifs at hgroup
  rw [bind_eq_ok_iff] at hgroup
  obtain ⟨⟨steps, total⟩, hsteps, hgroup⟩ := hgroup
  dsimp only at hgroup
  split_ifs at hgroup
  obtain rfl := Except.ok.inj hgroup
  obtain ⟨hadmitted, -, htotal⟩ := Traverse.foldlM_invariant
    (P := fun state => Admitted group state.1 ∧ state.2 = parsed.2 + overhead state.1 ∧ state.2 ≤ MAX_PADDING)
    ⟨⟨Nat.zero_le _, Nat.zero_le _, fun _ h => absurd h List.not_mem_nil⟩, rfl, hmax⟩
    (fun state step next _ hstate hstep => parse_step_bounds hstate.1 hstate.2.1 hstate.2.2 hstep) hsteps
  refine ⟨htotal, fun entry hentry => ?_⟩
  rcases List.mem_append.1 hentry with hentry | hentry
  · exact hentries entry hentry
  · obtain rfl := List.mem_singleton.1 hentry
    exact hadmitted

theorem parse_bounds {md5 : List UInt8 → Vector UInt8 16} {raw : List UInt8} {padding : Padding}
    (hparse : Padding.parse md5 raw = .ok padding) (group : Nat) : Admitted group ((padding.groups.lookup group).getD []) := by
  have hgroups : ∀ entry ∈ padding.groups, Admitted entry.1 entry.2 := by
    simp only [Padding.parse, bind_eq_ok_iff] at hparse
    obtain ⟨fields, -, hparse⟩ := hparse
    cases hstop : fields.lookup "stop" with
    | none =>
      rw [hstop] at hparse
      cases hparse
    | some stop =>
      rw [hstop] at hparse
      simp only [bind_eq_ok_iff] at hparse
      obtain ⟨stop, -, hparse⟩ := hparse
      split_ifs at hparse
      rw [bind_eq_ok_iff] at hparse
      obtain ⟨⟨groups, total⟩, hfold, hparse⟩ := hparse
      obtain rfl := Except.ok.inj hparse
      exact (Traverse.foldlM_invariant (P := fun state => state.2 ≤ MAX_PADDING ∧ ∀ entry ∈ state.1, Admitted entry.1 entry.2)
        ⟨Nat.zero_le _, List.forall_mem_nil _⟩ (fun state field next _ hstate hgroup => parse_group_bounds hstate hgroup) hfold).2
  cases hlookup : padding.groups.lookup group with
  | none => exact ⟨Nat.zero_le _, Nat.zero_le _, fun _ hmem => absurd hmem List.not_mem_nil⟩
  | some steps =>
    obtain ⟨front, back, hmem, -⟩ := List.lookup_eq_some_iff.1 hlookup
    exact hgroups (group, steps) (hmem ▸ List.mem_append_right _ List.mem_cons_self)

theorem steps_bounds {md5 : List UInt8 → Vector UInt8 16} {raw : List UInt8} {padding : Padding}
    (hparse : Padding.parse md5 raw = .ok padding) (group : Nat) :
    (padding.steps group).length ≤ 16 ∧ overhead (padding.steps group) ≤ MAX_PADDING := by
  rw [Padding.steps]
  split_ifs
  · exact ⟨(parse_bounds hparse group).length, (parse_bounds hparse group).added⟩
  · exact ⟨Nat.zero_le _, Nat.zero_le _⟩

/-! ## Random sizes -/

variable {n : UInt32}

section Uniform

variable {min max : Nat}

theorem random_size_self (draws : List (Option UInt32)) : random_size min min draws = (.ok min, draws) := by
  rw [random_size, if_pos rfl]
  rfl

theorem random_size_accepts (hne : min ≠ max) (hn : n.toNat < 4294967295 - 4294967295 % (max - min))
    (draws : List (Option UInt32)) :
    random_size min max (some n :: draws) = (.ok (min + n.toNat % (max - min)), draws) := by
  rw [random_size, if_neg hne]
  simp only [bind, draw, if_pos hn, pure, Act.andThen]

theorem random_size_rejects (hne : min ≠ max) (hn : ¬ n.toNat < 4294967295 - 4294967295 % (max - min))
    (draws : List (Option UInt32)) : random_size min max (some n :: draws) = random_size min max draws := by
  rw [random_size, if_neg hne]
  simp only [bind, draw, if_neg hn]

/-- Below a multiple of the span, each remainder comes equally often. -/
theorem card_draws {span value : Nat} (hspan : 0 < span) (hvalue : value < span) :
    Nat.card {n : UInt32 // n.toNat < 4294967295 - 4294967295 % span ∧ n.toNat % span = value} = 4294967295 / span := by
  have hbound : 4294967295 - 4294967295 % span = span * (4294967295 / span) := by
    have := Nat.div_add_mod 4294967295 span
    omega
  have hmod : (4294967295 - 4294967295 % span) % span = 0 := by
    rw [hbound, Nat.mul_mod_right]
  have hdiv : (4294967295 - 4294967295 % span) / span = 4294967295 / span := by
    rw [hbound, Nat.mul_div_cancel_left _ hspan]
  let counted := (Finset.range (4294967295 - 4294967295 % span)).filter (· ≡ value [MOD span])
  have hmem : ∀ n : Nat, n ∈ counted ↔ n < 4294967295 - 4294967295 % span ∧ n % span = value := by
    intro n
    rw [Finset.mem_filter, Finset.mem_range, Nat.ModEq, Nat.mod_eq_of_lt hvalue]
  have hcard : Nat.card {n : UInt32 // n.toNat < 4294967295 - 4294967295 % span ∧ n.toNat % span = value} = Nat.card counted := by
    refine Nat.card_congr ⟨fun n => ⟨n.1.toNat, (hmem _).2 n.2⟩, fun n => ⟨.ofNat n.1, ?_⟩, ?_, ?_⟩
    · obtain ⟨hlt, heq⟩ := (hmem _).1 n.2
      rw [UInt32.toNat_ofNat_of_lt' (by rw [UInt32.size]; omega)]
      exact ⟨hlt, heq⟩
    · intro n
      exact Subtype.ext UInt32.ofNat_toNat
    · intro n
      have hlt := ((hmem _).1 n.2).1
      exact Subtype.ext (UInt32.toNat_ofNat_of_lt' (by rw [UInt32.size]; omega))
  rw [hcard, Nat.card_eq_fintype_card, Fintype.card_coe, ← Nat.count_eq_card_filter_range, Nat.count_modEq_card _ hspan, hmod, hdiv,
    if_neg (Nat.not_lt_zero _), Nat.add_zero]

theorem random_size_iff (hlt : min < max) {value : Nat} : random_size min max [some n] = (.ok value, []) ↔
    n.toNat < 4294967295 - 4294967295 % (max - min) ∧ min + n.toNat % (max - min) = value := by
  by_cases hn : n.toNat < 4294967295 - 4294967295 % (max - min)
  · rw [random_size_accepts (Nat.ne_of_lt hlt) hn, Prod.mk.injEq, Except.ok.injEq]
    exact ⟨fun h => ⟨hn, h.1⟩, fun h => ⟨h.2, rfl⟩⟩
  · rw [random_size_rejects (Nat.ne_of_lt hlt) hn, random_size, if_neg (Nat.ne_of_lt hlt)]
    exact ⟨nofun, fun h => absurd h.1 hn⟩

/-- How many draws give a value. -/
theorem card_random_size (hlt : min < max) (value : Nat) :
    Nat.card {n : UInt32 // random_size min max [some n] = (.ok value, [])} =
      if min ≤ value ∧ value < max then 4294967295 / (max - min) else 0 := by
  have hspan : 0 < max - min := Nat.sub_pos_of_lt hlt
  split_ifs with hrange
  · rw [← card_draws hspan (show value - min < max - min by omega)]
    refine Nat.card_congr (Equiv.subtypeEquivRight fun n => ?_)
    rw [random_size_iff hlt]
    exact and_congr_right fun _ => by omega
  · rw [Nat.card_eq_zero]
    refine .inl ⟨fun ⟨n, hn⟩ => hrange ?_⟩
    obtain ⟨-, rfl⟩ := (random_size_iff hlt).1 hn
    have := Nat.mod_lt n.toNat hspan
    omega

end Uniform

/-- Sizes are drawn without bias: a draw is either used or drawn again, each size from the least to below the
    greatest comes from equally many draws and no other comes from any, and one size needs no draw. So every
    size of a parsed scheme is within its range. -/
theorem random_size_uniform :
    (∀ min max : UInt16, min < max →
      (∃ share, 0 < share ∧ ∀ value, Nat.card {n : UInt32 // random_size min.toNat max.toNat [some n] = (.ok value, [])} =
        if min.toNat ≤ value ∧ value < max.toNat then share else 0) ∧
      ∀ n, (∃ value, ∀ draws, random_size min.toNat max.toNat (some n :: draws) = (.ok value, draws)) ∨
        ∀ draws, random_size min.toNat max.toNat (some n :: draws) = random_size min.toNat max.toNat draws) ∧
    (∀ (min : UInt16) draws, random_size min.toNat min.toNat draws = (.ok min.toNat, draws)) ∧
    ∀ md5 raw padding, Padding.parse md5 raw = .ok padding → ∀ group size, .Size size ∈ (padding.groups.lookup group).getD [] →
      0 < size.min ∧ size.max ≤ size_limit group ∧ ∀ draws value draws', random_size size.min size.max draws = (.ok value, draws') →
        size.min ≤ value ∧ value ≤ size.max := by
  refine ⟨fun min max hlt => ⟨⟨4294967295 / (max.toNat - min.toNat), ?_, card_random_size hlt⟩, fun n => ?_⟩,
    fun _ => random_size_self, fun md5 raw padding hparse group size hsize => ?_⟩
  · have := max.toNat_lt
    exact Nat.div_pos (by omega) (Nat.sub_pos_of_lt hlt)
  · by_cases hn : n.toNat < 4294967295 - 4294967295 % (max.toNat - min.toNat)
    · exact .inl ⟨_, random_size_accepts (Nat.ne_of_lt hlt) hn⟩
    · exact .inr (random_size_rejects (Nat.ne_of_lt hlt) hn)
  · exact ⟨size.pos, (parse_bounds hparse group).sizes size hsize, fun draws value draws' hdraw =>
      Act.wp_ok (wp_random_size size.le) hdraw⟩

/-! ## Packets of parsed schemes -/

/-- A number that no range of sizes draws again. -/
def Sure (answer : Option UInt32) : Prop :=
  ∃ n, answer = some n ∧ n.toNat < 4294967296 - 16384

theorem wp_random_size_sure {first : Option UInt32} (hsure : Sure first) :
    Act.wp (random_size size.min size.max) (fun _ draws' => draws' = first :: draws ∨ draws' = draws) (fun _ _ => False) (first :: draws) := by
  obtain ⟨n, rfl, hn⟩ := hsure
  have hle := size.le
  have hfits := size.fits
  unfold random_size
  split_ifs with heq
  · exact .inl rfl
  · have hmod := Nat.mod_lt 4294967295 (Nat.sub_pos_of_lt (Nat.lt_of_le_of_ne hle heq))
    have hdraw : draw (4294967295 - 4294967295 % (size.max - size.min)) (some n :: draws) = (.ok n, draws) := by
      rw [draw, if_pos (by omega)]
    rw [Act.wp_bind, Act.wp, hdraw]
    exact .inr rfl

theorem wp_split_sure (hsure : ∀ answer ∈ draws, Sure answer) (hlength : steps.length ≤ draws.length)
    (data : List UInt8) : Act.wp (Padding.split steps data) (fun _ _ => True) (fun _ _ => False) draws := by
  induction steps generalizing data draws with
  | nil => trivial
  | cons step steps ih =>
    cases draws with
    | nil => exact absurd hlength (Nat.not_succ_le_zero _)
    | cons first draws =>
      have hrest : ∀ answer ∈ draws, Sure answer := fun answer hanswer => hsure answer (List.mem_cons_of_mem _ hanswer)
      have hshorter : steps.length ≤ draws.length := Nat.le_of_succ_le_succ hlength
      have hlonger : steps.length ≤ (first :: draws).length := Nat.le_succ_of_le hshorter
      cases step with
      | Check =>
        rw [Padding.split]
        split_ifs
        · trivial
        · exact ih hsure hlonger data
      | Size size =>
        rw [Padding.split, Act.wp_bind]
        refine Act.wp_mono (wp_random_size_sure (hsure first List.mem_cons_self)) ?_ fun _ _ h => h
        intro n draws' hdraws
        have hnext : ∀ data, Act.wp (Padding.split steps data) (fun _ _ => True) (fun _ _ => False) draws' := by
          intro data
          obtain rfl | rfl := hdraws
          · exact ih hsure hlonger data
          · exact ih hrest hshorter data
        split_ifs
        · rw [Act.wp_bind]
          exact hnext _
        · rw [Act.wp_bind]
          exact hnext _
        · rw [Act.wp_bind]
          exact hnext _
        · rw [Act.wp_bind]
          exact hnext _

/-- The packets of a group hold the data and after it whole frames of padding, for every parsed scheme and
    whatever the random source gives: no packet is empty, there are at most 17, at most 65536 bytes are
    added, and a group without steps is one packet. Only the random source fails, and sixteen numbers are enough. -/
theorem packets_transparent {md5 : List UInt8 → Vector UInt8 16} {raw : List UInt8} {padding : Padding}
    (hparse : Padding.parse md5 raw = .ok padding) (group : Nat) {data : List UInt8} (hdata : data ≠ [])
    (draws : List (Option UInt32)) :
    Act.wp (padding.packets group data)
      (fun packets _ => (∃ paddings, packets.flatten = data ++ encode paddings ∧
          (∀ frame ∈ paddings, frame.cmd = 0 ∧ frame.id = 0) ∧ (encode paddings).length ≤ 65536) ∧
        (∀ packet ∈ packets, packet ≠ []) ∧ packets.length ≤ 17 ∧
        (padding.stop ≤ group ∨ padding.groups.lookup group = none → packets = [data]))
      (fun stop _ => stop = .failed unavailable) draws ∧
    ((∀ answer ∈ draws, Sure answer) → 16 ≤ draws.length →
      ∃ packets draws', padding.packets group data draws = (.ok packets, draws')) := by
  obtain ⟨hcount, hadded⟩ := steps_bounds hparse group
  refine ⟨?_, fun hsure hlength => ?_⟩
  · by_cases hnone : padding.stop ≤ group ∨ padding.groups.lookup group = none
    · have hsteps : padding.steps group = [] := by
        rw [Padding.steps]
        rcases hnone with hstop | hnone
        · exact if_neg (Nat.not_lt_of_le hstop)
        · rw [hnone]
          exact ite_self _
      have hsome : ¬ data.isEmpty := fun hempty => hdata (List.isEmpty_iff.1 hempty)
      rw [Padding.packets, hsteps, Padding.split, if_neg hsome, Act.wp_pure]
      refine ⟨⟨[], rfl, nofun, Nat.zero_le _⟩, ?_, Nat.succ_le_succ (Nat.zero_le _), fun _ => rfl⟩
      intro packet hpacket
      obtain rfl := List.mem_singleton.1 hpacket
      exact hdata
    · refine Act.wp_mono (wp_split (padding.steps group) data draws) ?_ fun _ _ h => h
      rintro packets _ ⟨paddings, hpacked⟩
      have hpackets := hpacked.count
      rw [if_neg hdata] at hpackets
      exact ⟨⟨paddings, hpacked.flatten, hpacked.padding, hpacked.added.trans hadded⟩, hpacked.nonempty, by omega,
        fun h => absurd h hnone⟩
  · have hwp : Act.wp (padding.packets group data) (fun _ _ => True) (fun _ _ => False) draws :=
      wp_split_sure hsure (hcount.trans hlength) data
    unfold Act.wp at hwp
    match hrun : padding.packets group data draws with
    | (.ok packets, draws') => exact ⟨packets, draws', rfl⟩
    | (.error stop, draws') =>
      rw [hrun] at hwp
      exact hwp.elim

def sampleScheme : List UInt8 :=
  str.bytes "stop=2\n1=9-9,c,20-20"

/-- Three bytes in a group of two sizes. -/
theorem three_bytes_packed : ∃ padding, Padding.parse (fun _ => .replicate 16 0) sampleScheme = .ok padding ∧
    ∃ packets draws' paddings, padding.packets 1 [1, 2, 3] (.replicate 16 (some 0)) = (.ok packets, draws') ∧
      packets.flatten = [1, 2, 3] ++ encode paddings := by
  have hok : (Padding.parse (fun _ => .replicate 16 0) sampleScheme).isOk = true := by
    decide +kernel
  cases hparse : Padding.parse (fun _ => .replicate 16 0) sampleScheme with
  | error error =>
    rw [hparse] at hok
    cases hok
  | ok padding =>
    have hsure : ∀ answer ∈ List.replicate 16 (some 0), Sure answer := by
      intro answer hanswer
      obtain rfl := List.eq_of_mem_replicate hanswer
      exact ⟨0, rfl, by decide⟩
    obtain ⟨hwp, henough⟩ := packets_transparent hparse 1 (List.cons_ne_nil 1 [2, 3]) (.replicate 16 (some 0))
    obtain ⟨packets, draws', hpackets⟩ := henough hsure (by decide)
    obtain ⟨⟨paddings, hflatten, -⟩, -⟩ := Act.wp_ok hwp hpackets
    exact ⟨padding, rfl, packets, draws', paddings, hpackets, hflatten⟩

end zc.anytls
