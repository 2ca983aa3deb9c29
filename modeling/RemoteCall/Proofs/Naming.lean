/-
# Deriving a wire name is a normal form

Many member names have the same wire name: a leading `r#`, underscores at either end and further
underscores beside one do not count.  The wire name stands for all of them: it has no underscore
left to give meaning to, and deriving it once more gives it back (`derive_normal`).

`words` collects the words of a name in one pass, with the word under way as an accumulator.  Read
from the outside they are the segments between the underscores that are not empty
(`words_eq_segments`), and segments split where the name is split (`segments_append_underscore`);
every statement about underscores is an instance of that equation.

What deriving adds to a name are the upper-case forms of its words' first characters.  That none of
them is empty or brings an underscore or a `#` of its own is a fact about the tables
(`Uppercase.ofChar_apart`), and without it neither the second derivation nor the absence of
underscores would follow: `ß` becomes two characters, and another table could make one of them an
underscore.
-/
import Mathlib.Data.List.Basic
import RemoteCall.Naming

namespace RemoteCall.Uppercase

/-! ## 1. What upper-case forms are made of -/

/-- A character that stands for `code` has that code point: the replacement for what is not a code
point is `0`. -/
theorem eq_of_ofNat_eq {n : Nat} {c : Char} (h : Char.ofNat n = c) (hc : c ≠ '\x00') :
    n = c.toNat := by
  subst h
  by_cases hn : n.isValidChar
  · rw [Char.ofNat, dif_pos hn]
    rfl
  · rw [Char.ofNat, dif_neg hn] at hc
    exact absurd rfl hc

/-- No character of the run has the upper-case form `code`: `code` lies before or behind the forms
of the run. -/
def Run.Misses (run : Run) (code : Nat) : Prop :=
  code < run.first + run.distance ∨ run.first + run.count * run.spacing + run.distance ≤ code

instance (run : Run) (code : Nat) : Decidable (run.Misses code) :=
  inferInstanceAs (Decidable (_ ∨ _))

theorem Run.Misses.upper_ne {run : Run} {code form n : Nat} (hmiss : run.Misses form)
    (hform : 0 < form) (h : run.upper? code = some n) : n ≠ form := by
  simp only [Run.upper?, Option.ite_none_right_eq_some, Option.some.injEq] at h
  obtain ⟨⟨hfirst, hlast, -⟩, rfl⟩ := h
  unfold Run.Misses at hmiss
  have hlast' : (code : Int) < run.first + run.count * run.spacing := mod_cast hlast
  omega

/-- Every upper-case form of several characters has a first one, and neither underscores nor `#`. -/
theorem expansions_apart : ∀ entry ∈ expansions,
    entry.2 ≠ [] ∧ '_'.toNat ∉ entry.2 ∧ '#'.toNat ∉ entry.2 := by
  decide

/-- No upper-case form of a single character is an underscore or a `#`. -/
theorem runs_apart : ∀ run ∈ runs, run.Misses '_'.toNat ∧ run.Misses '#'.toNat := by
  decide +kernel

/-- **Upper case adds neither underscores nor `#`**, and leaves no character out. -/
theorem ofChar_apart {c : Char} (hline : c ≠ '_') (hmark : c ≠ '#') :
    ofChar c ≠ [] ∧ '_' ∉ ofChar c ∧ '#' ∉ ofChar c := by
  cases hcodes : expansions.lookup c.toNat with
  | some codes =>
    simp only [ofChar, hcodes]
    obtain ⟨before, after, hsplit, -⟩ := List.lookup_eq_some_iff.mp hcodes
    obtain ⟨hsome, hlines, hmarks⟩ := expansions_apart (c.toNat, codes) (by simp [hsplit])
    refine ⟨by simpa using hsome, fun h => ?_, fun h => ?_⟩ <;>
      obtain ⟨n, hn, heq⟩ := List.mem_map.mp h
    · exact hlines (eq_of_ofNat_eq heq (by decide) ▸ hn)
    · exact hmarks (eq_of_ofNat_eq heq (by decide) ▸ hn)
  | none =>
    cases hcode : runs.findSome? (·.upper? c.toNat) with
    | some code =>
      simp only [ofChar, hcodes, hcode, List.mem_singleton]
      obtain ⟨run, hrun, hupper⟩ := List.exists_of_findSome?_eq_some hcode
      obtain ⟨hlines, hmarks⟩ := runs_apart run hrun
      refine ⟨by simp, fun h => ?_, fun h => ?_⟩
      · exact hlines.upper_ne (by decide) hupper (eq_of_ofNat_eq h.symm (by decide))
      · exact hmarks.upper_ne (by decide) hupper (eq_of_ofNat_eq h.symm (by decide))
    | none => simp [ofChar, hcodes, hcode, hline.symm, hmark.symm]

end RemoteCall.Uppercase

namespace RemoteCall.Naming

open Uppercase

/-! ## 2. Segments -/

/-- The segments of a name between its underscores, without the empty ones. -/
def segments (name : List Char) : List (List Char) :=
  (name.splitOn '_').filter (· ≠ [])

@[simp] theorem segments_nil : segments [] = [] := rfl

/-- **A name splits at an underscore.**  What holds of added and doubled underscores follows. -/
theorem segments_append_underscore (before after : List Char) :
    segments (before ++ '_' :: after) = segments before ++ segments after := by
  simp [segments, List.splitOn, List.splitOnP_append_cons]

@[simp] theorem segments_cons_underscore (name : List Char) :
    segments ('_' :: name) = segments name :=
  segments_append_underscore [] name

theorem segments_eq_singleton {name : List Char} (hsome : name ≠ []) (hplain : '_' ∉ name) :
    segments name = [name] := by
  simp [segments, List.splitOn_eq_singleton hplain, hsome]

/-- The pass with the word `word` under way finds the segments of the name with that word before
it. -/
theorem wordsFrom_eq_segments (word name : List Char) (hword : '_' ∉ word) :
    wordsFrom word name = segments (word.reverse ++ name) := by
  induction name generalizing word with
  | nil =>
    rcases eq_or_ne word [] with rfl | hsome
    · rfl
    · rw [List.append_nil, segments_eq_singleton (by simpa using hsome) (by simpa using hword)]
      simp [wordsFrom, hsome]
  | cons c cs ih =>
    rcases eq_or_ne c '_' with rfl | hc
    · rw [segments_append_underscore, ← List.nil_append cs, ← List.reverse_nil,
        ← ih [] List.not_mem_nil]
      rcases eq_or_ne word [] with rfl | hsome
      · simp [wordsFrom]
      · rw [segments_eq_singleton (by simpa using hsome) (by simpa using hword)]
        simp [wordsFrom, hsome]
    · simp [wordsFrom, hc, ih (c :: word) (by simp [hc.symm, hword])]

/-- The words of a name are its segments. -/
theorem words_eq_segments (name : List Char) : words name = segments name :=
  wordsFrom_eq_segments [] name List.not_mem_nil

/-- Beside the word under way, the pass keeps every character but the underscores. -/
theorem flatten_wordsFrom (word name : List Char) :
    (wordsFrom word name).flatten = word.reverse ++ name.filter (· ≠ '_') := by
  fun_induction wordsFrom word name with
  | case1 word hempty => simpa using hempty
  | case2 word hsome => simp
  | case3 word cs hempty ih => simpa [List.isEmpty_iff.mp hempty] using ih
  | case4 word cs hsome ih => simpa using ih
  | case5 word c cs hc ih => simp [ih, hc]

/-- The segments keep every character but the underscores, in order. -/
theorem flatten_segments (name : List Char) :
    (segments name).flatten = name.filter (· ≠ '_') :=
  words_eq_segments name ▸ flatten_wordsFrom [] name

theorem of_mem_segments {name segment : List Char} (h : segment ∈ segments name) :
    segment ≠ [] ∧ ∀ c ∈ segment, c ∈ name ∧ c ≠ '_' := by
  refine ⟨by simpa using (List.mem_filter.mp h).2, fun c hc => ?_⟩
  have hkept : c ∈ name.filter (· ≠ '_') :=
    flatten_segments name ▸ List.mem_flatten.mpr ⟨segment, h, hc⟩
  simpa using hkept

/-- A name with a character other than the underscore has a segment. -/
theorem exists_segments_eq_cons {name : List Char} (hname : ∃ c ∈ name, c ≠ '_') :
    ∃ first others, segments name = first :: others := by
  refine List.exists_cons_of_ne_nil fun hnone => ?_
  obtain ⟨c, hmem, hc⟩ := hname
  have hkept := flatten_segments name
  rw [hnone, List.flatten_nil, eq_comm, List.filter_eq_nil_iff] at hkept
  exact hkept c hmem (by simpa using hc)

theorem segments_replicate_append (n : Nat) (name : List Char) :
    segments (List.replicate n '_' ++ name) = segments name := by
  induction n with
  | zero => simp
  | succ n ih => simpa [List.replicate_succ] using ih

theorem segments_append_replicate (n : Nat) (name : List Char) :
    segments (name ++ List.replicate n '_') = segments name := by
  cases n with
  | zero => simp
  | succ n =>
    rw [List.replicate_succ, segments_append_underscore]
    simpa using segments_replicate_append n []

/-! ## 3. The derived name -/

/-- A segment with its first character in upper case and the others as they are. -/
def raised (segment : List Char) : List Char :=
  (segment.take 1).flatMap Uppercase.ofChar ++ segment.drop 1

theorem capitalize_eq_raised (segment : List Char) : capitalize segment = raised segment := by
  cases segment <;> simp [capitalize, raised]

/-- Raising a segment brings neither underscores nor `#`. -/
theorem apart_of_mem_raised {segment : List Char} (h : ∀ c ∈ segment, c ≠ '_' ∧ c ≠ '#') :
    ∀ c ∈ raised segment, c ≠ '_' ∧ c ≠ '#' := by
  intro c hc
  rcases List.mem_append.mp hc with hfirst | hrest
  · obtain ⟨d, hd, hform⟩ := List.mem_flatMap.mp hfirst
    obtain ⟨hline, hmark⟩ := h d (List.mem_of_mem_take hd)
    obtain ⟨-, hlines, hmarks⟩ := Uppercase.ofChar_apart hline hmark
    exact ⟨fun heq => hlines (heq ▸ hform), fun heq => hmarks (heq ▸ hform)⟩
  · exact h c (List.mem_of_mem_drop hrest)

theorem dropRaw_eq_self {name : List Char} (h : '#' ∉ name) : dropRaw name = name := by
  unfold dropRaw
  split
  · simp at h
  · rfl

/-- **The derived name is the first segment followed by the others raised**, and a leading `r#`
does not matter. -/
theorem deriveChars_eq {member name first : List Char} {others : List (List Char)}
    (hname : dropRaw member = name) (hsegments : segments name = first :: others) :
    deriveChars member = first ++ others.flatMap raised := by
  simp only [deriveChars, hname, words_eq_segments, hsegments]
  rw [List.flatMap_def, List.map_congr_left fun segment _ => capitalize_eq_raised segment]

/-- What a member name and its wire name have to do with each other. -/
structure Normal (member : String) : Prop where
  /-- A leading `r#` does not count. -/
  raw : derive ("r#" ++ member) = derive member
  /-- There is a wire name, -/
  named : derive member ≠ ""
  /-- without underscores, -/
  plain : '_' ∉ (derive member).toList
  /-- made of the segments, each but the first with its first character in upper case. -/
  spelled : ∃ first others, segments member.toList = first :: others ∧
    (derive member).toList = first ++ others.flatMap raised
  /-- It is its own wire name. -/
  settled : derive (derive member) = derive member
  /-- Underscores before and behind the name do not count, -/
  padded : ∀ before after : Nat,
    derive (String.ofList (List.replicate before '_') ++ member ++
      String.ofList (List.replicate after '_')) = derive member
  /-- nor does another one beside any of its own. -/
  doubled : ∀ before after : String, member = before ++ "_" ++ after →
    derive (before ++ "__" ++ after) = derive member

/-- Names with the same segments have the same wire name. -/
theorem deriveChars_congr {name name' : List Char} (hmark : '#' ∉ name) (hmark' : '#' ∉ name')
    (hname : ∃ c ∈ name, c ≠ '_') (h : segments name' = segments name) :
    deriveChars name' = deriveChars name := by
  obtain ⟨first, others, hsegments⟩ := exists_segments_eq_cons hname
  rw [deriveChars_eq (dropRaw_eq_self hmark) hsegments,
    deriveChars_eq (dropRaw_eq_self hmark') (h.trans hsegments)]

/-- The derived name is not empty and has neither underscores nor `#`. -/
theorem deriveChars_apart {name : List Char} (hmark : '#' ∉ name) (hname : ∃ c ∈ name, c ≠ '_') :
    deriveChars name ≠ [] ∧ ∀ c ∈ deriveChars name, c ≠ '_' ∧ c ≠ '#' := by
  obtain ⟨first, others, hsegments⟩ := exists_segments_eq_cons hname
  have happart : ∀ segment ∈ first :: others, ∀ c ∈ segment, c ≠ '_' ∧ c ≠ '#' := by
    intro segment hmem c hc
    obtain ⟨hin, hline⟩ := (of_mem_segments (hsegments ▸ hmem)).2 c hc
    exact ⟨hline, fun heq => hmark (heq ▸ hin)⟩
  rw [deriveChars_eq (dropRaw_eq_self hmark) hsegments]
  refine ⟨?_, fun c hc => ?_⟩
  · have hsome := (of_mem_segments (hsegments ▸ List.mem_cons_self : first ∈ segments name)).1
    simp [hsome]
  · rcases List.mem_append.mp hc with hfirst | hothers
    · exact happart first (.head _) c hfirst
    · obtain ⟨segment, hmem, hraised⟩ := List.mem_flatMap.mp hothers
      exact apart_of_mem_raised (happart segment (.tail _ hmem)) c hraised

/-- A name without underscores and `#` is its own wire name. -/
theorem deriveChars_eq_self {name : List Char} (hsome : name ≠ [])
    (h : ∀ c ∈ name, c ≠ '_' ∧ c ≠ '#') : deriveChars name = name := by
  have hline : '_' ∉ name := fun hmem => (h _ hmem).1 rfl
  have hmark : '#' ∉ name := fun hmem => (h _ hmem).2 rfl
  simpa using deriveChars_eq (dropRaw_eq_self hmark) (segments_eq_singleton hsome hline)

/-- **The wire name is a normal form** of every name without `#` that has a character other than
the underscore. -/
theorem derive_normal (member : String) (hmark : '#' ∉ member.toList)
    (hname : ∃ c ∈ member.toList, c ≠ '_') : Normal member := by
  obtain ⟨hsome, happart⟩ := deriveChars_apart hmark hname
  have hcongr : ∀ name : String, '#' ∉ name.toList →
      segments name.toList = segments member.toList → derive name = derive member :=
    fun name hmark' h => congrArg String.ofList (deriveChars_congr hmark hmark' hname h)
  obtain ⟨first, others, hsegments⟩ := exists_segments_eq_cons hname
  constructor
  case raw =>
    have hraw : dropRaw ("r#" ++ member).toList = member.toList := by simp [dropRaw]
    simp only [derive]
    rw [deriveChars_eq hraw hsegments, deriveChars_eq (dropRaw_eq_self hmark) hsegments]
  case named => simpa [derive] using hsome
  case plain =>
    intro hmem
    exact (happart '_' (by simpa [derive] using hmem)).1 rfl
  case spelled =>
    refine ⟨first, others, hsegments, ?_⟩
    simpa [derive] using deriveChars_eq (dropRaw_eq_self hmark) hsegments
  case settled => simp [derive, deriveChars_eq_self hsome happart]
  case padded =>
    intro before after
    refine hcongr _ (by simp [hmark]) ?_
    simp [segments_replicate_append, segments_append_replicate]
  case doubled =>
    rintro before after rfl
    refine hcongr _ (by simpa using hmark) ?_
    simp [segments_append_underscore]

/-- Leading, doubled and trailing underscores and an expanding character at once. -/
theorem derive_normal_strasse :
    '#' ∉ "__ge_t__ßStraße_".toList ∧ (∃ c ∈ "__ge_t__ßStraße_".toList, c ≠ '_') ∧
      Normal "__ge_t__ßStraße_" ∧ derive "__ge_t__ßStraße_" = "geTSSStraße" :=
  ⟨by decide, ⟨'g', by decide, by decide⟩,
    derive_normal _ (by decide) ⟨'g', by decide, by decide⟩, by decide⟩

end RemoteCall.Naming
