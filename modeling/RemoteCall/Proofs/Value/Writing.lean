/-
# Generic values and the trees they are written as

A value is written as a tree of the wire grammar, if it has one (`Value.tree?`, `writes_write`).
This module says which values have one: those in which every part that is written can be
(`Writable`), where null fields of objects are not written.  It then compares the tree with the
value: it is nested as deep as the value (`depth_of_tree?`), and it means the value without its null
fields (`value_of_tree?`).

All four are inductions on the value, with one statement for a value, one for the items of an array
and one for the fields of an object.
-/
import RemoteCall.Proofs.Value.Fields
import RemoteCall.Proofs.Wire.Writing
import RemoteCall.Value.Codec

namespace RemoteCall.Value

open Wire Wire.Writer Success

variable {scopes : List Scope}

/-! ## 1. The tree of a value -/

mutual

/-- The tree that a value is written as, if it has one. -/
def tree? : Value → Option Tree
  | null => none
  | bool b => some (.boolean b)
  | integer n => (toInt64? n).map .number
  | fraction _ => none
  | string text => (SizedText.of? text).map .string
  | array items => (itemTrees? items).map .array
  | object fields => (entryTrees? fields).map .object

/-- The trees of values, if all have one. -/
def itemTrees? : List Value → Option (List Tree)
  | [] => some []
  | item :: items => (tree? item).bind fun tree => (itemTrees? items).map (tree :: ·)

/-- The entries of the fields that are not null, if all have one. -/
def entryTrees? : List (String × Value) → Option (List (SizedText 2 × Tree))
  | [] => some []
  | (name, value) :: fields =>
    if value.isNull then entryTrees? fields
    else (SizedText.of? name).bind fun name => (tree? value).bind fun tree =>
      (entryTrees? fields).map ((name, tree) :: ·)

end

theorem tree?_null {value : Value} (h : value.isNull = true) : value = null := by
  cases value <;> first | rfl | cases h

/-- A value that is not null is announced by the token of its tree. -/
theorem token_of_isNull_eq_false {value : Value} (h : value.isNull = false) :
    ∃ token, value.token = .ok token ∧ ∀ tree, value.tree? = some tree → tree.token = token := by
  cases value
  case null => cases h
  case fraction literal =>
    refine ⟨_, rfl, fun tree htree => ?_⟩
    cases htree
  case bool b =>
    refine ⟨_, rfl, fun tree htree => ?_⟩
    cases htree
    rfl
  all_goals
    refine ⟨_, rfl, fun tree htree => ?_⟩
    obtain ⟨_, -, rfl⟩ := Option.map_eq_some_iff.mp htree
    rfl

mutual

/-- **A value is written as its tree**, and has to have one. -/
theorem writes_write : ∀ (value : Value) (scopes : List Scope),
    Writes value.write scopes value.tree?
  | null, _ => by
    rw [write, tree?]
    exact writes_throw
  | bool b, _ => by
    rw [write, tree?]
    exact writes_bool b
  | integer n, _ => by
    rw [write, tree?]
    cases toInt64? n with
    | none => exact writes_throw
    | some word => exact writes_number word
  | fraction literal, _ => by
    rw [write, tree?]
    exact writes_throw
  | string text, _ => by
    rw [write, tree?]
    exact writes_string text
  | array items, _ => by
    rw [write, tree?]
    exact writes_array (writesAll_writeItems items (by simp))
  | object fields, _ => by
    rw [write, tree?]
    exact writes_object (writesAll_writeFields fields)

theorem writesAll_writeItems : ∀ (items : List Value) {scopes : List Scope},
    scopes.head? ≠ some .object → WritesAll (writeItems items) scopes (itemTrees? items)
  | [], _, _ => by
    rw [writeItems, itemTrees?]
    exact writesAll_nil
  | item :: items, scopes, hs => by
    have hitem := (writes_write item scopes).item hs
    have h := hitem.append (writesAll_writeItems items hs)
    rw [writeItems, itemTrees?]
    simp only [Option.bind_map, Function.comp_apply, List.singleton_append] at h
    exact h

theorem writesAll_writeFields : ∀ (fields : List (String × Value)) {scopes : List Scope},
    WritesAll (writeFields fields) (.object :: scopes) (entryTrees? fields)
  | [], _ => by
    rw [writeFields, entryTrees?]
    exact writesAll_nil
  | (name, value) :: fields, scopes => by
    rw [writeFields, entryTrees?]
    cases hnull : value.isNull with
    | true =>
      obtain rfl := tree?_null hnull
      exact writesAll_writeFields fields
    | false =>
      obtain ⟨token, htoken, hagrees⟩ := token_of_isNull_eq_false hnull
      have hentry := (writes_write value (.object :: scopes)).entry name hagrees
      have h := hentry.append (writesAll_writeFields fields)
      simp only [Option.bind_assoc, Option.bind_map, Function.comp_def, List.singleton_append,
        bind_assoc] at h
      simp only [htoken, Bool.false_eq_true, if_false]
      exact h

end

/-! ## 2. Which values have a tree -/

/-- A value can be written, however deep it is nested: numbers fit a signed word, texts and names
are not too long, and a null stands nowhere but in a field. -/
inductive Writable : Value → Prop
  | bool (b : Bool) : Writable (.bool b)
  | integer {n : Int} (least : Int64.minValue.toInt ≤ n) (greatest : n ≤ Int64.maxValue.toInt) :
    Writable (.integer n)
  | string {text : String} (fits : text.utf8ByteSize < 2 ^ 32) : Writable (.string text)
  | array {items : List Value} (items_writable : ∀ item ∈ items, Writable item) :
    Writable (.array items)
  | object {fields : List (String × Value)}
    (names_fit : ∀ field ∈ fields, field.2.isNull = false → field.1.utf8ByteSize < 2 ^ 16)
    (values_writable : ∀ field ∈ fields, field.2.isNull = false → Writable field.2) :
    Writable (.object fields)

theorem exists_sizedText_iff {width : Nat} {text : String} :
    (∃ sized : SizedText width, SizedText.of? text = some sized) ↔
      text.utf8ByteSize < 256 ^ width := by
  simp only [SizedText.of?_eq_some_iff]
  constructor
  · rintro ⟨sized, rfl⟩
    exact sized.fits
  · intro fits
    exact ⟨⟨text, fits⟩, rfl⟩

theorem exists_toInt64?_iff {n : Int} :
    (∃ word, toInt64? n = some word) ↔ Int64.minValue.toInt ≤ n ∧ n ≤ Int64.maxValue.toInt := by
  unfold toInt64?
  split
  · rename_i h
    exact ⟨fun _ => h, fun _ => ⟨_, rfl⟩⟩
  · rename_i h
    exact ⟨fun ⟨_, hword⟩ => (Option.some_ne_none _ hword.symm).elim, fun h' => absurd h' h⟩

theorem toInt_of_toInt64? {n : Int} {word : Int64} (h : toInt64? n = some word) :
    word.toInt = n := by
  unfold toInt64? at h
  split at h
  · rename_i hfits
    cases h
    rw [Int64.toInt_minValue, Int64.toInt_maxValue] at hfits
    exact Int64.toInt_ofInt_of_le hfits.1 (by omega)
  · cases h

theorem toInt64?_toInt (word : Int64) : toInt64? word.toInt = some word := by
  obtain ⟨found, hfound⟩ := exists_toInt64?_iff.mpr ⟨word.minValue_le_toInt, word.toInt_le⟩
  rw [hfound, Int64.toInt_inj.mp (toInt_of_toInt64? hfound)]

mutual

/-- **The values that have a tree are those that can be written.** -/
theorem exists_tree?_iff : ∀ value : Value, (∃ tree, value.tree? = some tree) ↔ value.Writable
  | null => by
    constructor
    · rintro ⟨_, h⟩
      cases h
    · intro h
      cases h
  | bool b => ⟨fun _ => .bool b, fun _ => ⟨_, rfl⟩⟩
  | integer n => by
    simp only [tree?, Option.map_eq_some_iff]
    constructor
    · rintro ⟨_, word, hword, -⟩
      obtain ⟨hleast, hgreatest⟩ := exists_toInt64?_iff.mp ⟨word, hword⟩
      exact .integer hleast hgreatest
    · intro h
      cases h with
      | integer hleast hgreatest =>
        obtain ⟨word, hword⟩ := exists_toInt64?_iff.mpr ⟨hleast, hgreatest⟩
        exact ⟨_, word, hword, rfl⟩
  | fraction literal => by
    constructor
    · rintro ⟨_, h⟩
      cases h
    · intro h
      cases h
  | string text => by
    simp only [tree?, Option.map_eq_some_iff]
    constructor
    · rintro ⟨_, sized, hsized, -⟩
      exact .string (exists_sizedText_iff.mp ⟨sized, hsized⟩)
    · intro h
      cases h with
      | string hfits =>
        have hfits : text.utf8ByteSize < 256 ^ 4 := hfits
        obtain ⟨sized, hsized⟩ := exists_sizedText_iff.mpr hfits
        exact ⟨_, sized, hsized, rfl⟩
  | array items => by
    simp only [tree?, Option.map_eq_some_iff]
    constructor
    · rintro ⟨_, trees, htrees, -⟩
      exact .array ((exists_itemTrees?_iff items).mp ⟨trees, htrees⟩)
    · intro h
      cases h with
      | array hitems =>
        obtain ⟨trees, htrees⟩ := (exists_itemTrees?_iff items).mpr hitems
        exact ⟨_, trees, htrees, rfl⟩
  | object fields => by
    simp only [tree?, Option.map_eq_some_iff]
    constructor
    · rintro ⟨_, entries, hentries, -⟩
      have h := (exists_entryTrees?_iff fields).mp ⟨entries, hentries⟩
      exact .object (fun field hfield hnull => (h field hfield hnull).1)
        (fun field hfield hnull => (h field hfield hnull).2)
    · intro h
      cases h with
      | object hnames hvalues =>
        obtain ⟨entries, hentries⟩ := (exists_entryTrees?_iff fields).mpr
          fun field hfield hnull => ⟨hnames field hfield hnull, hvalues field hfield hnull⟩
        exact ⟨_, entries, hentries, rfl⟩

theorem exists_itemTrees?_iff : ∀ items : List Value,
    (∃ trees, itemTrees? items = some trees) ↔ ∀ item ∈ items, item.Writable
  | [] => by simp [itemTrees?]
  | item :: items => by
    rw [List.forall_mem_cons, ← exists_tree?_iff item, ← exists_itemTrees?_iff items]
    simp only [itemTrees?, Option.bind_eq_some_iff, Option.map_eq_some_iff]
    constructor
    · rintro ⟨_, tree, htree, trees, htrees, -⟩
      exact ⟨⟨tree, htree⟩, trees, htrees⟩
    · rintro ⟨⟨tree, htree⟩, trees, htrees⟩
      exact ⟨_, tree, htree, trees, htrees, rfl⟩

theorem exists_entryTrees?_iff : ∀ fields : List (String × Value),
    (∃ entries, entryTrees? fields = some entries) ↔
      ∀ field ∈ fields, field.2.isNull = false →
        field.1.utf8ByteSize < 2 ^ 16 ∧ field.2.Writable
  | [] => by simp [entryTrees?]
  | (name, value) :: fields => by
    rw [List.forall_mem_cons, ← exists_tree?_iff value, ← exists_entryTrees?_iff fields,
      show 2 ^ 16 = 256 ^ 2 from rfl, ← exists_sizedText_iff]
    simp only [entryTrees?]
    cases value.isNull with
    | true => simp
    | false =>
      simp only [Bool.false_eq_true, if_false, Option.bind_eq_some_iff, Option.map_eq_some_iff,
        true_implies]
      constructor
      · rintro ⟨_, sized, hsized, tree, htree, entries, hentries, -⟩
        exact ⟨⟨⟨sized, hsized⟩, tree, htree⟩, entries, hentries⟩
      · rintro ⟨⟨⟨sized, hsized⟩, tree, htree⟩, entries, hentries⟩
        exact ⟨_, sized, hsized, tree, htree, entries, hentries, rfl⟩

end

/-! ## 3. Nesting -/

mutual

/-- How deep arrays and objects are nested in a value. -/
def nesting : Value → Nat
  | array items => itemsNesting items + 1
  | object fields => fieldsNesting fields + 1
  | _ => 0

/-- The deepest nesting among values. -/
def itemsNesting : List Value → Nat
  | [] => 0
  | item :: items => max item.nesting (itemsNesting items)

/-- The deepest nesting among the values of fields. -/
def fieldsNesting : List (String × Value) → Nat
  | [] => 0
  | (_, value) :: fields => max value.nesting (fieldsNesting fields)

end

theorem fieldsNesting_le_iff {n : Nat} : ∀ {fields : List (String × Value)},
    fieldsNesting fields ≤ n ↔ ∀ field ∈ fields, field.2.nesting ≤ n
  | [] => by simp [fieldsNesting]
  | (_, value) :: fields => by
    simp only [fieldsNesting, Nat.max_le, fieldsNesting_le_iff, List.forall_mem_cons]

mutual

/-- A value is written as deep as it is nested. -/
theorem depth_of_tree? : ∀ {value : Value} {tree : Tree}, value.tree? = some tree →
    tree.depth = value.nesting
  | null, _, h => by cases h
  | bool _, _, h => by
    cases h
    rfl
  | integer _, _, h => by
    obtain ⟨word, -, rfl⟩ := Option.map_eq_some_iff.mp h
    rfl
  | fraction _, _, h => by cases h
  | string _, _, h => by
    obtain ⟨sized, -, rfl⟩ := Option.map_eq_some_iff.mp h
    rfl
  | array items, _, h => by
    obtain ⟨trees, htrees, rfl⟩ := Option.map_eq_some_iff.mp h
    rw [Tree.depth, nesting, depth_of_itemTrees? htrees]
  | object fields, _, h => by
    obtain ⟨entries, hentries, rfl⟩ := Option.map_eq_some_iff.mp h
    rw [Tree.depth, nesting, depth_of_entryTrees? hentries]

theorem depth_of_itemTrees? : ∀ {items : List Value} {trees : List Tree},
    itemTrees? items = some trees → Tree.itemsDepth trees = itemsNesting items
  | [], _, h => by
    cases h
    rfl
  | item :: items, _, h => by
    obtain ⟨tree, htree, h⟩ := Option.bind_eq_some_iff.mp h
    obtain ⟨trees, htrees, rfl⟩ := Option.map_eq_some_iff.mp h
    rw [Tree.itemsDepth, itemsNesting, depth_of_tree? htree, depth_of_itemTrees? htrees]

theorem depth_of_entryTrees? : ∀ {fields : List (String × Value)}
    {entries : List (SizedText 2 × Tree)}, entryTrees? fields = some entries →
    Tree.entriesDepth entries = fieldsNesting fields
  | [], _, h => by
    cases h
    rfl
  | (name, value) :: fields, entries, h => by
    unfold entryTrees? at h
    split at h
    · rename_i hnull
      rw [fieldsNesting, tree?_null hnull, nesting, Nat.zero_max]
      · exact depth_of_entryTrees? h
      all_goals simp
    · obtain ⟨sized, -, h⟩ := Option.bind_eq_some_iff.mp h
      obtain ⟨tree, htree, h⟩ := Option.bind_eq_some_iff.mp h
      obtain ⟨entries, hentries, rfl⟩ := Option.map_eq_some_iff.mp h
      rw [Tree.entriesDepth, fieldsNesting, depth_of_tree? htree, depth_of_entryTrees? hentries]

end

/-! ## 4. Meaning -/

mutual

/-- The value without the null fields of its objects. -/
def strip : Value → Value
  | array items => .array (stripItems items)
  | object fields => .object (stripFields fields)
  | value => value

/-- The values without the null fields of their objects. -/
def stripItems : List Value → List Value
  | [] => []
  | item :: items => item.strip :: stripItems items

/-- The fields that are not null, without the null fields of their objects. -/
def stripFields : List (String × Value) → List (String × Value)
  | [] => []
  | (name, value) :: fields =>
    if value.isNull then stripFields fields else (name, value.strip) :: stripFields fields

end

/-- The fields of every object in a value are in order. -/
inductive Ordered : Value → Prop
  | null : Ordered .null
  | bool (b : Bool) : Ordered (.bool b)
  | integer (n : Int) : Ordered (.integer n)
  | fraction (literal : String) : Ordered (.fraction literal)
  | string (text : String) : Ordered (.string text)
  | array {items : List Value} (items_ordered : ∀ item ∈ items, Ordered item) :
    Ordered (.array items)
  | object {fields : List (String × Value)} (fields_ordered : Fields.Ordered fields)
    (values_ordered : ∀ field ∈ fields, Ordered field.2) : Ordered (.object fields)

theorem names_stripFields : ∀ fields : List (String × Value),
    ((stripFields fields).map (·.1)).Sublist (fields.map (·.1))
  | [] => .slnil
  | (name, value) :: fields => by
    unfold stripFields
    split
    · exact (names_stripFields fields).cons name
    · exact (names_stripFields fields).cons_cons name

mutual

/-- **The tree of a value means the value without its null fields.** -/
theorem value_of_tree? : ∀ {value : Value} {tree : Tree}, value.Ordered →
    value.tree? = some tree → tree.value = value.strip
  | null, _, _, h => by cases h
  | bool _, _, _, h => by
    cases h
    rfl
  | integer n, _, _, h => by
    obtain ⟨word, hword, rfl⟩ := Option.map_eq_some_iff.mp h
    rw [Tree.value, strip, toInt_of_toInt64? hword]
    all_goals simp
  | fraction _, _, _, h => by cases h
  | string _, _, _, h => by
    obtain ⟨sized, hsized, rfl⟩ := Option.map_eq_some_iff.mp h
    rw [Tree.value, SizedText.of?_eq_some_iff.mp hsized, strip]
    all_goals simp
  | array items, _, .array hitems, h => by
    obtain ⟨trees, htrees, rfl⟩ := Option.map_eq_some_iff.mp h
    rw [Tree.value, strip, values_of_itemTrees? hitems htrees]
  | object fields, _, .object hordered hvalues, h => by
    obtain ⟨entries, hentries, rfl⟩ := Option.map_eq_some_iff.mp h
    rw [Tree.value, strip, values_of_entryTrees? hvalues hentries,
      Fields.ofList_of_ordered (hordered.of_sublist (names_stripFields fields))]

theorem values_of_itemTrees? : ∀ {items : List Value} {trees : List Tree},
    (∀ item ∈ items, item.Ordered) → itemTrees? items = some trees →
    Tree.itemValues trees = stripItems items
  | [], _, _, h => by
    cases h
    rfl
  | item :: items, _, hordered, h => by
    obtain ⟨hitem, hitems⟩ := List.forall_mem_cons.mp hordered
    obtain ⟨tree, htree, h⟩ := Option.bind_eq_some_iff.mp h
    obtain ⟨trees, htrees, rfl⟩ := Option.map_eq_some_iff.mp h
    rw [Tree.itemValues, stripItems, value_of_tree? hitem htree, values_of_itemTrees? hitems htrees]

theorem values_of_entryTrees? : ∀ {fields : List (String × Value)}
    {entries : List (SizedText 2 × Tree)}, (∀ field ∈ fields, field.2.Ordered) →
    entryTrees? fields = some entries → Tree.entryValues entries = stripFields fields
  | [], _, _, h => by
    cases h
    rfl
  | (name, value) :: fields, entries, hordered, h => by
    obtain ⟨hvalue, hvalues⟩ := List.forall_mem_cons.mp hordered
    unfold entryTrees? at h
    unfold stripFields
    split at h
    · rename_i hnull
      rw [if_pos hnull]
      exact values_of_entryTrees? hvalues h
    · rename_i hnull
      obtain ⟨sized, hsized, h⟩ := Option.bind_eq_some_iff.mp h
      obtain ⟨tree, htree, h⟩ := Option.bind_eq_some_iff.mp h
      obtain ⟨entries, hentries, rfl⟩ := Option.map_eq_some_iff.mp h
      rw [if_neg hnull, Tree.entryValues, SizedText.of?_eq_some_iff.mp hsized,
        value_of_tree? hvalue htree, values_of_entryTrees? hvalues hentries]

end

end RemoteCall.Value
