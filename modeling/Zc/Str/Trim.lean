import Mathlib.Data.List.TakeWhile
import Zc.Str

/-!
# Trimming

Trimming a wider class of characters undoes whatever was trimmed of a narrower one, and the fields
of a text, once trimmed, do not depend on white space around the text.
-/

namespace zc.str

variable {p q : Char → Bool} {s : String} {sep : Char}

/-- `trimMatches` on characters. -/
def trimChars (q : Char → Bool) (chars : List Char) : List Char :=
  ((chars.dropWhile q).reverse.dropWhile q).reverse

theorem trimMatches_eq (q : Char → Bool) (s : String) : trimMatches q s = String.ofList (trimChars q s.toList) := by
  rw [trimMatches, trimEndMatches, trimStartMatches, String.toList_ofList, trimChars]

theorem trimChars_append_left {lead : List Char} (hlead : ∀ c ∈ lead, q c = true) (chars : List Char) :
    trimChars q (lead ++ chars) = trimChars q chars := by
  rw [trimChars, List.dropWhile_append_of_pos hlead, trimChars]

theorem trimChars_append_right {trail : List Char} (htrail : ∀ c ∈ trail, q c = true) (chars : List Char) :
    trimChars q (chars ++ trail) = trimChars q chars := by
  rw [trimChars, trimChars, List.dropWhile_append]
  split
  · next hempty =>
    rw [List.dropWhile_eq_nil_iff.2 htrail, List.isEmpty_iff.1 hempty]
  · rw [List.reverse_append, List.dropWhile_append_of_pos fun c hc => htrail c (List.mem_reverse.1 hc)]

/-- What is trimmed stands on the two sides. -/
theorem exists_trimChars (p : Char → Bool) (chars : List Char) : ∃ lead trail, chars = lead ++ trimChars p chars ++ trail ∧
    (∀ c ∈ lead, p c = true) ∧ ∀ c ∈ trail, p c = true := by
  refine ⟨chars.takeWhile p, ((chars.dropWhile p).reverse.takeWhile p).reverse, ?_, fun c hc => List.mem_takeWhile_imp hc,
    fun c hc => List.mem_takeWhile_imp (List.mem_reverse.1 hc)⟩
  have hend : chars.dropWhile p = trimChars p chars ++ ((chars.dropWhile p).reverse.takeWhile p).reverse := by
    rw [trimChars, ← List.reverse_append, List.takeWhile_append_dropWhile, List.reverse_reverse]
  rw [List.append_assoc, ← hend, List.takeWhile_append_dropWhile]

/-- A wider trim after a narrower one. -/
theorem trimMatches_trimMatches (hle : ∀ c, p c = true → q c = true) (s : String) :
    trimMatches q (trimMatches p s) = trimMatches q s := by
  obtain ⟨lead, trail, hsplit, hlead, htrail⟩ := exists_trimChars p s.toList
  have hchars : trimChars q s.toList = trimChars q (trimChars p s.toList) := by
    conv_lhs => rw [hsplit]
    rw [trimChars_append_right fun c hc => hle c (htrail c hc), trimChars_append_left fun c hc => hle c (hlead c hc)]
  rw [trimMatches_eq, trimMatches_eq, trimMatches_eq, String.toList_ofList, hchars]

theorem trimChars_eq_self {chars : List Char} (hfirst : ∀ c ∈ chars.head?, p c = false)
    (hlast : ∀ c ∈ chars.getLast?, p c = false) : trimChars p chars = chars := by
  have hdrop : ∀ {chars : List Char}, (∀ c ∈ chars.head?, p c = false) → chars.dropWhile p = chars := by
    intro chars hhead
    cases chars with
    | nil => rfl
    | cons c chars => exact List.dropWhile_cons_of_neg (by rw [hhead c rfl]; exact Bool.false_ne_true)
  rw [trimChars, hdrop hfirst, hdrop (by rwa [List.head?_reverse]), List.reverse_reverse]

theorem not_of_mem_head?_dropWhile {chars : List Char} {c : Char} (hc : c ∈ (chars.dropWhile q).head?) : q c = false := by
  have hhead := List.head?_dropWhile_not q chars
  rw [Option.mem_def.1 hc] at hhead
  simpa using hhead

/-- A narrower trim after a wider one. -/
theorem trimMatches_of_trimmed (hle : ∀ c, p c = true → q c = true) (s : String) :
    trimMatches p (trimMatches q s) = trimMatches q s := by
  have hnot : ∀ {c}, q c = false → p c = false := by
    intro c hc
    rw [← Bool.not_eq_true] at hc ⊢
    exact fun hp => hc (hle c hp)
  rw [trimMatches_eq, trimMatches_eq, String.toList_ofList, trimChars_eq_self]
  · intro c hc
    have hsuffix := List.dropWhile_suffix (l := (s.toList.dropWhile q).reverse) q
    rw [← List.reverse_prefix, List.reverse_reverse] at hsuffix
    obtain ⟨rest, hrest⟩ := hsuffix
    refine hnot (@not_of_mem_head?_dropWhile q s.toList c ?_)
    rw [trimChars, Option.mem_def] at hc
    rw [← hrest, List.head?_append, hc]
    rfl
  · intro c hc
    rw [trimChars, List.getLast?_reverse] at hc
    exact hnot (not_of_mem_head?_dropWhile hc)

theorem trim_trimMatches (hle : ∀ c, p c = true → isWhitespace c = true) (s : String) : trim (trimMatches p s) = trim s :=
  trimMatches_trimMatches hle s

/-! ## Fields -/

theorem not_mem_of_mem_splitOn {chars field : List Char} (hfield : field ∈ chars.splitOn sep) : sep ∉ field := by
  induction chars generalizing field with
  | nil =>
    obtain rfl : field = [] := List.mem_singleton.1 hfield
    exact List.not_mem_nil
  | cons c chars ih =>
    rw [List.splitOn, List.splitOnP_cons_eq_if_modifyHead, ← List.splitOn] at hfield
    split at hfield
    · rcases List.mem_cons.1 hfield with rfl | hfield
      · exact List.not_mem_nil
      · exact ih hfield
    · next hc =>
      obtain ⟨first, rest, hchars⟩ := List.exists_cons_of_ne_nil (List.splitOn_ne_nil sep chars)
      rw [hchars, List.modifyHead_cons] at hfield
      rcases List.mem_cons.1 hfield with rfl | hfield
      · rw [List.mem_cons, not_or]
        refine ⟨fun heq => hc (beq_iff_eq.2 heq.symm), ih ?_⟩
        rw [hchars]
        exact List.mem_cons_self
      · refine ih ?_
        rw [hchars]
        exact List.mem_cons_of_mem _ hfield

theorem not_mem_of_mem_split {field : String} (hfield : field ∈ split s sep) : sep ∉ field.toList := by
  rw [split, List.mem_map] at hfield
  obtain ⟨chars, hchars, rfl⟩ := hfield
  rw [String.toList_ofList]
  exact not_mem_of_mem_splitOn hchars

theorem mem_of_mem_trimMatches {c : Char} (hc : c ∈ (trimMatches p s).toList) : c ∈ s.toList := by
  rw [trimMatches_eq, String.toList_ofList] at hc
  obtain ⟨lead, trail, hsplit, -⟩ := exists_trimChars p s.toList
  rw [hsplit]
  exact List.mem_append_left _ (List.mem_append_right _ hc)

/-- Fields without commas can be told apart again. -/
theorem split_intercalate {fields : List String} (hfields : ∀ field ∈ fields, ',' ∉ field.toList) (hne : fields ≠ []) :
    split (",".intercalate fields) ',' = fields := by
  have hsplit : (",".intercalate fields).toList.splitOn ',' = fields.map String.toList := by
    rw [String.toList_intercalate]
    refine List.splitOn_intercalate ',' ?_ (by simpa using hne)
    simpa using hfields
  rw [split, hsplit, List.map_map]
  conv_rhs => rw [← List.map_id fields]
  exact List.map_congr_left fun field _ => String.ofList_toList

theorem trimMatches_idem (p : Char → Bool) (s : String) : trimMatches p (trimMatches p s) = trimMatches p s :=
  trimMatches_trimMatches (fun _ h => h) s

end zc.str
