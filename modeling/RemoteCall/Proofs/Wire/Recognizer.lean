/-
# What a reader recognizes

An operation that reads one value is described by the trees whose payload it accepts, and by what
it answers for each: `Recognizes read scopes interpret` says that `read`, with the token of a value
looked at, succeeds exactly on the payloads of trees that fit the nesting limit and that
`interpret` gives a meaning, and answers that meaning.  Both directions are in it, so an operation
that is recognized accepts no byte string that the grammar does not derive.

The loop over the values of a scope is treated once (`untilEnd_ok`), for the top level, arrays and
objects alike: if a step reads one element, the loop reads a list of elements up to the end of the
scope, and its answer is the fold of the steps' answers.  `recognizes_array` and
`recognizes_object` put the boundaries around it.
-/
import RemoteCall.Proofs.Wire.Reading

namespace RemoteCall.Wire.Reader

open Success

variable {α β ε : Type} {bytes : Bytes} {position : Nat} {scopes : List Scope} {after : Reader}

/-! ## 1. Reading one value, and one element -/

/-- With the token of a value looked at, `read` accepts exactly the payloads of the trees that fit
and that `interpret` gives a meaning, and answers that meaning. -/
def Recognizes (read : Read α) (scopes : List Scope) (interpret : Tree → Option α) : Prop :=
  ∀ (bytes : Bytes) (position : Nat) (token : Token) (a : α) (after : Reader),
    read ⟨bytes, position, scopes, some token, none⟩ = .ok a after ↔
      ∃ (tree : Tree) (rest : Bytes), tree.token = token ∧ tree.depth ≤ room scopes ∧
        interpret tree = some a ∧ bytes = tree.payload ++ rest ∧
        after = ⟨rest, position + tree.payload.length, scopes, none, none⟩

/-- With the token and the name of an element looked at, `step` accepts exactly the payloads of the
elements of that name that fit and that `interpret` accepts. -/
def ReadsElement [Element ε] (step : β → Read β) (scopes : List Scope)
    (interpret : β → ε → Option β) : Prop :=
  ∀ (bytes : Bytes) (position : Nat) (token : Token) (name? : Option (SizedText 2)) (b b' : β)
    (after : Reader), Names scopes name? →
    (step b ⟨bytes, position, scopes, some token, name?.map (·.text)⟩ = .ok b' after ↔
      ∃ (element : ε) (rest : Bytes), Element.name? element = name? ∧
        (Element.tree element).token = token ∧ (Element.tree element).depth ≤ room scopes ∧
        interpret b element = some b' ∧ bytes = (Element.tree element).payload ++ rest ∧
        after = ⟨rest, position + (Element.tree element).payload.length, scopes, none, none⟩)

/-- The elements of a scope fit it: they are named as its values are, and not too deep. -/
def Fits [Element ε] (scopes : List Scope) (elements : List ε) : Prop :=
  ∀ element ∈ elements,
    Names scopes (Element.name? element) ∧ (Element.tree element).depth ≤ room scopes

/-! ## 2. The loop -/

/-- The state in which a loop leaves off: the end of the scope has been looked at. -/
def atEnd (scopes : List Scope) (rest : Bytes) (position : Nat) : Reader :=
  ⟨rest, position, scopes, some (endToken scopes.head?), none⟩

theorem ends_length {scope : Option Scope} {tail rest : Bytes} (h : Ends scope tail rest) :
    rest.length ≤ tail.length := by
  rcases h with rfl | ⟨-, rfl, rfl⟩ <;> simp

theorem length_element_bytes [Element ε] (element : ε) :
    (Element.bytes element).length =
      1 + (Element.nameBytes (Element.name? element)).length +
        (Element.tree element).payload.length := by
  simp only [Element.bytes, List.length_cons, List.length_append]
  omega

/-- **One round of a loop that goes on** takes one element. -/
theorem round_ok [Element ε] {step : β → Read β} {interpret : β → ε → Option β}
    (hstep : ReadsElement step scopes interpret) {b b' : β} :
    (∃ (token : Token) (seen : Reader),
      peek ⟨bytes, position, scopes, none, none⟩ = .ok token seen ∧ token.startsValue = true ∧
        step b seen = .ok b' after) ↔
      ∃ (element : ε) (rest : Bytes), Fits scopes [element] ∧ interpret b element = some b' ∧
        bytes = Element.bytes element ++ rest ∧
        after = ⟨rest, position + (Element.bytes element).length, scopes, none, none⟩ := by
  constructor
  · rintro ⟨token, seen, hpeek, hvalue, h⟩
    rcases peek_ok.mp hpeek with ⟨name?, tail, -, hnames, rfl, rfl⟩ | ⟨rest, rfl, -, -⟩
    · obtain ⟨element, rest, rfl, rfl, hdepth, hinterpret, rfl, rfl⟩ :=
        (hstep _ _ _ _ _ _ _ hnames).mp h
      refine ⟨element, rest, ?_, hinterpret, ?_, ?_⟩
      · intro e he
        obtain rfl := List.mem_singleton.mp he
        exact ⟨hnames, hdepth⟩
      · simp [Element.bytes]
      · rw [length_element_bytes]
        congr 1
        omega
    · simp at hvalue
  · rintro ⟨element, rest, hfits, hinterpret, rfl, rfl⟩
    obtain ⟨hnames, hdepth⟩ := hfits element (List.mem_singleton_self _)
    refine ⟨_, _, peek_ok.mpr (.inl ⟨Element.name? element, (Element.tree element).payload ++ rest,
      Tree.startsValue_token (Element.tree element), hnames, by simp [Element.bytes], rfl⟩),
      Tree.startsValue_token _, ?_⟩
    refine (hstep _ _ _ _ _ _ _ hnames).mpr
      ⟨element, rest, rfl, rfl, hdepth, hinterpret, rfl, ?_⟩
    rw [length_element_bytes]
    congr 1
    omega

/-- **A loop that stops at once** has looked at the end of the scope. -/
theorem stop_ok :
    (∃ token, peek ⟨bytes, position, scopes, none, none⟩ = .ok token after ∧
        token.startsValue = false) ↔
      ∃ rest, Ends scopes.head? bytes rest ∧
        after = atEnd scopes rest (position + (bytes.length - rest.length)) := by
  constructor
  · rintro ⟨token, hpeek, hvalue⟩
    rcases peek_ok.mp hpeek with ⟨_, _, h, -⟩ | ⟨rest, rfl, hends, rfl⟩
    · rw [hvalue] at h
      cases h
    · exact ⟨rest, hends, rfl⟩
  · rintro ⟨rest, hends, rfl⟩
    exact ⟨_, peek_ok.mpr (.inr ⟨rest, rfl, hends, rfl⟩), startsValue_endToken _⟩

/-- A loop stops where it looks at the end of the scope, and goes on where it looks at a value. -/
theorem ifNext_ok {next : Read β} {before : Reader} {b b' : β} :
    (do if ← hasNext then next else return b) before = .ok b' after ↔
      (∃ token, peek before = .ok token after ∧ token.startsValue = false) ∧ b' = b ∨
      ∃ token seen, peek before = .ok token seen ∧ token.startsValue = true ∧
        next seen = .ok b' after := by
  simp only [bind_ok, hasNext_ok]
  constructor
  · rintro ⟨more, seen, ⟨token, hpeek, rfl⟩, h⟩
    split at h
    · rename_i hvalue
      exact .inr ⟨token, seen, hpeek, hvalue, h⟩
    · rename_i hvalue
      obtain ⟨rfl, rfl⟩ := pure_ok.mp h
      exact .inl ⟨⟨token, hpeek, by simpa using hvalue⟩, rfl⟩
  · rintro (⟨⟨token, hpeek, hvalue⟩, rfl⟩ | ⟨token, seen, hpeek, hvalue, h⟩)
    · exact ⟨_, _, ⟨token, hpeek, rfl⟩, by rw [hvalue]; rfl⟩
    · exact ⟨_, _, ⟨token, hpeek, rfl⟩, by rw [hvalue]; exact h⟩

theorem foldNext_cons_ok {step : β → Read β} {before : Reader} {b b' : β} {byte : UInt8}
    {left : Bytes} :
    foldNext step (byte :: left) b before = .ok b' after ↔
      (∃ token, peek before = .ok token after ∧ token.startsValue = false) ∧ b' = b ∨
      ∃ b₁ mid, (∃ token seen, peek before = .ok token seen ∧ token.startsValue = true ∧
        step b seen = .ok b₁ mid) ∧ foldNext step left b₁ mid = .ok b' after := by
  rw [foldNext, ifNext_ok]
  refine or_congr_right ?_
  simp only [bind_ok]
  constructor
  · rintro ⟨token, seen, hpeek, hvalue, b₁, mid, hstep, hrest⟩
    exact ⟨b₁, mid, ⟨token, seen, hpeek, hvalue, hstep⟩, hrest⟩
  · rintro ⟨b₁, mid, ⟨token, seen, hpeek, hvalue, hstep⟩, hrest⟩
    exact ⟨token, seen, hpeek, hvalue, b₁, mid, hstep, hrest⟩

/-- **What a loop reads**: elements up to the end of the scope, and their fold is the answer.  The
induction is on the bound of the rounds, which the unread bytes never exceed because every element
takes at least one. -/
theorem foldNext_ok [Element ε] {step : β → Read β} {interpret : β → ε → Option β}
    (hstep : ReadsElement step scopes interpret) :
    ∀ {left bytes : Bytes} {position : Nat} {b b' : β}, bytes.length ≤ left.length →
      (foldNext step left b ⟨bytes, position, scopes, none, none⟩ = .ok b' after ↔
        ∃ (elements : List ε) (tail rest : Bytes), Fits scopes elements ∧
          elements.foldlM interpret b = some b' ∧
          bytes = elements.flatMap Element.bytes ++ tail ∧ Ends scopes.head? tail rest ∧
          after = atEnd scopes rest (position + (bytes.length - rest.length))) := by
  intro left
  induction left with
  | nil =>
    intro bytes position b b' hlen
    obtain rfl := List.length_eq_zero_iff.mp (Nat.le_zero.mp hlen)
    rw [foldNext, ifNext_ok, stop_ok, round_ok hstep]
    constructor
    · rintro (⟨⟨rest, hends, rfl⟩, rfl⟩ | ⟨element, rest, _, _, hbytes, _⟩)
      · exact ⟨[], [], rest, by simp [Fits], rfl, rfl, hends, rfl⟩
      · cases hbytes
    · rintro ⟨elements, tail, rest, -, hfold, hbytes, hends, rfl⟩
      cases elements with
      | nil =>
        cases hfold
        obtain rfl : [] = tail := hbytes
        exact .inl ⟨⟨rest, hends, rfl⟩, rfl⟩
      | cons element elements => cases hbytes
  | cons byte left ih =>
    intro bytes position b b' hlen
    rw [foldNext_cons_ok, stop_ok]
    simp only [round_ok hstep]
    constructor
    · rintro (⟨⟨rest, hends, rfl⟩, rfl⟩ | ⟨b₁, _, ⟨element, next, hfits, hfirst, rfl, rfl⟩, hrest⟩)
      · exact ⟨[], bytes, rest, by simp [Fits], rfl, rfl, hends, rfl⟩
      · have hshort : next.length ≤ left.length := by
          rw [List.length_append, length_element_bytes, List.length_cons] at hlen
          omega
        obtain ⟨elements, tail, rest, hmore, hfold, rfl, hends, rfl⟩ := (ih hshort).mp hrest
        refine ⟨element :: elements, tail, rest, ?_, ?_, ?_, hends, ?_⟩
        · exact List.forall_mem_cons.mpr ⟨hfits element (List.mem_singleton_self _), hmore⟩
        · rw [List.foldlM_cons, hfirst]
          exact hfold
        · simp
        · have := ends_length hends
          simp only [List.length_append]
          congr 1
          omega
    · rintro ⟨elements, tail, rest, hfits, hfold, rfl, hends, rfl⟩
      cases elements with
      | nil =>
        cases hfold
        exact .inl ⟨⟨rest, hends, rfl⟩, rfl⟩
      | cons element elements =>
        obtain ⟨hfirst, hmore⟩ := List.forall_mem_cons.mp hfits
        rw [List.foldlM_cons] at hfold
        obtain ⟨b₁, hb₁, hfold⟩ := Option.bind_eq_some_iff.mp hfold
        have hshort : (elements.flatMap Element.bytes ++ tail).length ≤ left.length := by
          rw [List.flatMap_cons, List.append_assoc, List.length_append, length_element_bytes,
            List.length_cons] at hlen
          omega
        refine .inr ⟨b₁, _, ⟨element, _, ?_, hb₁, ?_, rfl⟩,
          (ih hshort).mpr ⟨elements, tail, rest, hmore, hfold, rfl, hends, ?_⟩⟩
        · exact List.forall_mem_singleton.mpr hfirst
        · simp
        · have := ends_length hends
          simp only [List.flatMap_cons, List.length_append]
          congr 1
          omega

theorem untilEnd_ok [Element ε] {step : β → Read β} {interpret : β → ε → Option β}
    (hstep : ReadsElement step scopes interpret) {b b' : β} :
    untilEnd step b ⟨bytes, position, scopes, none, none⟩ = .ok b' after ↔
      ∃ (elements : List ε) (tail rest : Bytes), Fits scopes elements ∧
        elements.foldlM interpret b = some b' ∧
        bytes = elements.flatMap Element.bytes ++ tail ∧ Ends scopes.head? tail rest ∧
        after = atEnd scopes rest (position + (bytes.length - rest.length)) := by
  unfold untilEnd
  rw [get_bind, foldNext_ok hstep (Nat.le_refl _)]

/-! ## 3. Recognizers -/

/-- Reading on from a recognized value, without touching the bytes, keeps what is recognized. -/
theorem Recognizes.bind {read : Read α} {interpret : Tree → Option α} {next : α → Read β}
    {then? : α → Option β} (h : Recognizes read scopes interpret)
    (hnext : ∀ a b (before after : Reader),
      next a before = .ok b after ↔ then? a = some b ∧ after = before) :
    Recognizes (read >>= next) scopes (fun tree => (interpret tree).bind then?) := by
  intro bytes position token b after
  simp only [bind_ok, h bytes position token, hnext]
  constructor
  · rintro ⟨a, _, ⟨tree, rest, htoken, hdepth, ha, hbytes, rfl⟩, hb, rfl⟩
    exact ⟨tree, rest, htoken, hdepth, by rw [ha]; exact hb, hbytes, rfl⟩
  · rintro ⟨tree, rest, htoken, hdepth, hb, hbytes, rfl⟩
    obtain ⟨a, ha, hb⟩ := Option.bind_eq_some_iff.mp hb
    exact ⟨a, _, ⟨tree, rest, htoken, hdepth, ha, hbytes, rfl⟩, hb, rfl⟩

theorem Recognizes.map {read : Read α} {interpret : Tree → Option α} (k : α → β)
    (h : Recognizes read scopes interpret) :
    Recognizes (do return k (← read)) scopes (fun tree => (interpret tree).map k) := by
  simp only [Option.map_eq_bind]
  exact h.bind fun a b before after => by
    simp only [pure_ok, Function.comp_apply, Option.some.injEq, eq_comm (a := b)]

/-- What is recognized at one token is a matter of the trees with that token alone. -/
theorem Recognizes.at {read : Read α} {interpret interpret' : Tree → Option α} {token : Token}
    {a : α} (h : Recognizes read scopes interpret)
    (hagree : ∀ tree : Tree, tree.token = token → interpret tree = interpret' tree) :
    read ⟨bytes, position, scopes, some token, none⟩ = .ok a after ↔
      ∃ (tree : Tree) (rest : Bytes), tree.token = token ∧ tree.depth ≤ room scopes ∧
        interpret' tree = some a ∧ bytes = tree.payload ++ rest ∧
        after = ⟨rest, position + tree.payload.length, scopes, none, none⟩ := by
  refine (h bytes position token a after).trans ?_
  refine exists_congr fun tree => exists_congr fun rest => and_congr_right fun htoken => ?_
  rw [hagree tree htoken]

/-- Where no value starts, nothing is recognized. -/
theorem not_recognized {read : Read α} {interpret : Tree → Option α} {token : Token} {a : α}
    (hvalue : token.startsValue = false)
    (hfails : ∀ a after, read ⟨bytes, position, scopes, some token, none⟩ ≠ .ok a after) :
    read ⟨bytes, position, scopes, some token, none⟩ = .ok a after ↔
      ∃ (tree : Tree) (rest : Bytes), tree.token = token ∧ tree.depth ≤ room scopes ∧
        interpret tree = some a ∧ bytes = tree.payload ++ rest ∧
        after = ⟨rest, position + tree.payload.length, scopes, none, none⟩ := by
  constructor
  · intro h
    exact absurd h (hfails a after)
  · rintro ⟨tree, _, rfl, _⟩
    rw [tree.startsValue_token] at hvalue
    cases hvalue

theorem recognizes_number : Recognizes readNumber scopes Tree.number? := by
  intro bytes position token n after
  rw [readNumber_ok]
  constructor
  · rintro ⟨rfl, rest, rfl, rfl⟩
    refine ⟨.number n, rest, rfl, Nat.zero_le _, rfl, rfl, ?_⟩
    rw [Tree.payload, Bytes.length_ofInt64]
  · rintro ⟨tree, rest, rfl, -, hn, rfl, rfl⟩
    cases tree <;> cases hn
    exact ⟨rfl, rest, rfl, by rw [Tree.payload, Bytes.length_ofInt64]⟩

theorem recognizes_string : Recognizes readString scopes Tree.text? := by
  intro bytes position token text after
  rw [readString_ok]
  constructor
  · rintro ⟨rfl, sized, rest, rfl, rfl, rfl⟩
    exact ⟨.string sized, rest, rfl, Nat.zero_le _, rfl, rfl, rfl⟩
  · rintro ⟨tree, rest, rfl, -, htext, rfl, rfl⟩
    cases tree <;> cases htext
    exact ⟨rfl, _, rest, rfl, rfl, rfl⟩

theorem recognizes_boolean : Recognizes readBool scopes Tree.bool? := by
  intro bytes position token b after
  rw [readBool_ok]
  constructor
  · rintro ⟨rfl, rest, rfl, rfl⟩
    exact ⟨.boolean b, rest, rfl, Nat.zero_le _, rfl, rfl, rfl⟩
  · rintro ⟨tree, rest, rfl, -, hb, rfl, rfl⟩
    cases tree <;> cases hb
    exact ⟨rfl, rest, rfl, rfl⟩

/-- A step that reads a value reads an element wherever values have no names. -/
theorem Recognizes.readsItem {read : β → Read β} {interpret : β → Tree → Option β}
    (h : ∀ b, Recognizes (read b) scopes (interpret b)) (hs : scopes.head? ≠ some .object) :
    ReadsElement read scopes interpret := by
  intro bytes position token name? b b' after hnames
  obtain rfl : name? = none := by simpa [Names, hs] using hnames
  refine (h b bytes position token b' after).trans ?_
  constructor
  · rintro ⟨tree, rest, htoken, hdepth, hb, hbytes, hafter⟩
    exact ⟨tree, rest, rfl, htoken, hdepth, hb, hbytes, hafter⟩
  · rintro ⟨tree, rest, -, htoken, hdepth, hb, hbytes, hafter⟩
    exact ⟨tree, rest, htoken, hdepth, hb, hbytes, hafter⟩

/-- A step that takes the name and reads a value reads an element of an object. -/
theorem Recognizes.readsEntry {read : β → String → Read β}
    {interpret : β → String → Tree → Option β}
    (h : ∀ b name, Recognizes (read b name) (.object :: scopes) (interpret b name)) :
    ReadsElement (fun b => do read b (← nextName)) (.object :: scopes)
      (fun b (entry : SizedText 2 × Tree) => interpret b entry.1.text entry.2) := by
  intro bytes position token name? b b' after hnames
  obtain ⟨name, rfl⟩ : ∃ name, name? = some name := Option.isSome_iff_exists.mp (hnames.mpr rfl)
  simp only [bind_ok, Option.map_some, nextName_ok, Option.some.injEq]
  constructor
  · rintro ⟨_, _, ⟨rfl, rfl⟩, hread⟩
    obtain ⟨tree, rest, htoken, hdepth, hb, hbytes, hafter⟩ := (h _ _ _ _ _ _ _).mp hread
    exact ⟨(name, tree), rest, rfl, htoken, hdepth, hb, hbytes, hafter⟩
  · rintro ⟨⟨_, tree⟩, rest, hname, htoken, hdepth, hb, hbytes, hafter⟩
    cases hname
    exact ⟨_, _, ⟨rfl, rfl⟩, (h _ _ _ _ _ _ _).mpr ⟨tree, rest, htoken, hdepth, hb, hbytes, hafter⟩⟩

theorem fits_items {items : List Tree} (hs : scopes.head? ≠ some .object) :
    Fits scopes items ↔ ∀ item ∈ items, item.depth ≤ room scopes := by
  refine forall₂_congr fun item _ => and_iff_right ?_
  simpa [Names, Element.name?] using hs

/-- The elements of a scope have the names that its values need. -/
theorem fits_iff [Element ε] {scope : Scope} {opening : Token} {gather : List ε → Tree}
    (hgather : Gathers scope opening gather) {elements : List ε} :
    Fits (scope :: scopes) elements ↔
      ∀ element ∈ elements, (Element.tree element).depth ≤ room (scope :: scopes) := by
  refine forall₂_congr fun element _ => and_iff_right ?_
  rw [Names, hgather.named, List.head?_cons, Option.some.injEq]

/-- Collecting answers last first, and turning them around, is collecting them in order. -/
theorem foldlM_cons_eq_mapM (interpret : Tree → Option α) : ∀ (trees : List Tree) (done : List α),
    trees.foldlM (fun done tree => (interpret tree).map (· :: done)) done =
      (trees.mapM interpret).map (fun values => values.reverse ++ done)
  | [], done => by simp
  | tree :: trees, done => by
    rw [List.foldlM_cons, List.mapM_cons]
    cases interpret tree with
    | none => rfl
    | some value =>
      simp only [Option.map_some, Option.bind_eq_bind, Option.bind_some,
        foldlM_cons_eq_mapM interpret trees (value :: done)]
      cases trees.mapM interpret <;> simp

/-- **Values up to the end of a scope without names.** -/
theorem items_ok {read : Read α} {interpret : Tree → Option α}
    (h : Recognizes read scopes interpret) (hs : scopes.head? ≠ some .object) {values : List α} :
    items read ⟨bytes, position, scopes, none, none⟩ = .ok values after ↔
      ∃ (trees : List Tree) (tail rest : Bytes), (∀ tree ∈ trees, tree.depth ≤ room scopes) ∧
        trees.mapM interpret = some values ∧ bytes = trees.flatMap Tree.bytes ++ tail ∧
        Ends scopes.head? tail rest ∧
        after = atEnd scopes rest (position + (bytes.length - rest.length)) := by
  have hstep := Recognizes.readsItem (fun done => h.map (· :: done)) hs
  unfold items
  simp only [bind_ok, pure_ok, untilEnd_ok hstep, fits_items hs, foldlM_cons_eq_mapM,
    Option.map_eq_some_iff, List.append_nil]
  constructor
  · rintro ⟨_, _, ⟨trees, tail, rest, hfits, ⟨values, hvalues, rfl⟩, hbytes, hends, rfl⟩, rfl, rfl⟩
    exact ⟨trees, tail, rest, hfits, by rw [List.reverse_reverse, hvalues], hbytes, hends, rfl⟩
  · rintro ⟨trees, tail, rest, hfits, hvalues, hbytes, hends, rfl⟩
    exact ⟨_, _, ⟨trees, tail, rest, hfits, ⟨values, hvalues, rfl⟩, hbytes, hends, rfl⟩,
      (List.reverse_reverse values).symm, rfl⟩

/-- **The inside of a scope and its end.** -/
theorem untilClose_ok [Element ε] {scope : Scope} {step : β → Read β} {interpret : β → ε → Option β}
    (hstep : ReadsElement step (scope :: scopes) interpret) (k : β → α) {start : β} {a : α} :
    (do
      let b ← untilEnd step start
      close scope
      return k b) ⟨bytes, position, scope :: scopes, none, none⟩ = .ok a after ↔
      ∃ (elements : List ε) (rest : Bytes), Fits (scope :: scopes) elements ∧
        (elements.foldlM interpret start).map k = some a ∧
        bytes = elements.flatMap Element.bytes ++ [scope.closing.tag] ++ rest ∧
        after = ⟨rest, position + (elements.flatMap Element.bytes ++ [scope.closing.tag]).length,
          scopes, none, none⟩ := by
  have hlength : ∀ (inside rest : Bytes),
      (inside ++ scope.closing.tag :: rest).length - rest.length =
        (inside ++ [scope.closing.tag]).length := by
    intro inside rest
    simp only [List.length_append, List.length_cons, List.length_nil]
    omega
  simp only [bind_ok, pure_ok, untilEnd_ok hstep, Option.map_eq_some_iff]
  constructor
  · rintro ⟨b, _, ⟨elements, tail, rest, hfits, hfold, rfl, hends, rfl⟩, _, _, hclose, rfl, rfl⟩
    obtain rfl := close_ok.mp hclose
    obtain rfl : tail = scope.closing.tag :: rest := hends.resolve_right (by simp)
    refine ⟨elements, rest, hfits, ⟨b, hfold, rfl⟩, ?_, ?_⟩
    · rw [List.append_assoc]
      rfl
    · rw [hlength]
  · rintro ⟨elements, rest, hfits, ⟨b, hfold, rfl⟩, rfl, rfl⟩
    refine ⟨b, _, ⟨elements, scope.closing.tag :: rest, rest, hfits, hfold, ?_, .inl rfl, rfl⟩,
      (), _, close_ok.mpr rfl, rfl, ?_⟩
    · rw [List.append_assoc]
      rfl
    · rw [List.append_assoc, List.singleton_append, hlength]

/-- **A scope is read by a fold over its elements.** -/
theorem recognizes_scope [Element ε] {scope : Scope} {opening : Token} {gather : List ε → Tree}
    {elements? : Tree → Option (List ε)} {expected : Expectation} {step : β → Read β}
    {interpret : β → ε → Option β} (hgather : Gathers scope opening gather)
    (helements : ∀ tree elements, elements? tree = some elements ↔ tree = gather elements)
    (k : β → α) (start : β)
    (hstep : scopes.length < maxDepth → ReadsElement step (scope :: scopes) interpret) :
    Recognizes (do
        (do consume opening expected; push scope)
        let b ← untilEnd step start
        close scope
        return k b) scopes
      (fun tree => ((elements? tree).bind (·.foldlM interpret start)).map k) := by
  intro bytes position token a after
  rw [bind_ok]
  simp only [opens_ok]
  constructor
  · rintro ⟨_, _, ⟨rfl, hroom, rfl⟩, hinside⟩
    obtain ⟨elements, rest, hfits, hfold, rfl, rfl⟩ := (untilClose_ok (hstep hroom) k).mp hinside
    refine ⟨gather elements, rest, hgather.token elements, ?_, ?_, ?_⟩
    · exact hgather.depth_le_room_iff.mpr ⟨hroom, (fits_iff hgather).mp hfits⟩
    · rw [(helements _ _).mpr rfl]
      exact hfold
    · rw [hgather.payload]
      exact ⟨rfl, rfl⟩
  · rintro ⟨tree, rest, rfl, hdepth, hfold, rfl, rfl⟩
    cases hfound : elements? tree with
    | none =>
      rw [hfound] at hfold
      cases hfold
    | some elements =>
      rw [hfound] at hfold
      obtain rfl := (helements _ _).mp hfound
      obtain ⟨hroom, hdepth⟩ := hgather.depth_le_room_iff.mp hdepth
      refine ⟨(), _, ⟨hgather.token elements, hroom, rfl⟩, (untilClose_ok (hstep hroom) k).mpr
        ⟨elements, rest, (fits_iff hgather).mpr hdepth, hfold, ?_⟩⟩
      rw [hgather.payload]
      exact ⟨rfl, rfl⟩

/-- An array is read by a fold over its values. -/
theorem recognizes_array {read : β → Read β} {interpret : β → Tree → Option β} (k : β → α)
    (start : β) (h : scopes.length < maxDepth →
      ∀ b, Recognizes (read b) (.array :: scopes) (interpret b)) :
    Recognizes (do beginArray; let b ← untilEnd read start; endArray; return k b) scopes
      (fun tree => (tree.items?.bind (·.foldlM interpret start)).map k) := by
  refine recognizes_scope gathers_array ?_ k start fun hroom => ?_
  · intro tree items
    cases tree <;> simp [Tree.items?]
  · exact Recognizes.readsItem (h hroom) (by simp)

/-- An object is read by a fold over its entries. -/
theorem recognizes_object {read : β → String → Read β} {interpret : β → String → Tree → Option β}
    (k : β → α) (start : β) (h : scopes.length < maxDepth →
      ∀ b name, Recognizes (read b name) (.object :: scopes) (interpret b name)) :
    Recognizes (do
        beginObject
        let b ← untilEnd (fun b => do read b (← nextName)) start
        endObject
        return k b) scopes
      (fun tree => (tree.entries?.bind (·.foldlM
        (fun b entry => interpret b entry.1.text entry.2) start)).map k) := by
  refine recognizes_scope gathers_object ?_ k start fun hroom => ?_
  · intro tree entries
    cases tree <;> simp [Tree.entries?]
  · exact Recognizes.readsEntry (h hroom)

/-- An array is read as the list of what its values are read as. -/
theorem recognizes_items {read : Read α} {interpret : Tree → Option α} (k : List α → β)
    (h : scopes.length < maxDepth → Recognizes read (.array :: scopes) interpret) :
    Recognizes (do beginArray; let values ← items read; endArray; return k values) scopes
      (fun tree => (tree.items?.bind (·.mapM interpret)).map k) := by
  have hfold := recognizes_array (fun done => k done.reverse) []
    fun hroom done => (h hroom).map (· :: done)
  have hinterpret : ∀ tree : Tree, (tree.items?.bind (·.mapM interpret)).map k =
      (tree.items?.bind (·.foldlM (fun done tree => (interpret tree).map (· :: done)) [])).map
        fun done => k done.reverse := by
    intro tree
    cases tree.items? with
    | none => rfl
    | some trees => simp [foldlM_cons_eq_mapM, Function.comp_def]
  simp only [items, bind_assoc, pure_bind, hinterpret]
  exact hfold

/-- **A value that has not been looked at** is looked at and then read. -/
theorem Recognizes.read_tree {read : Read α} {interpret : Tree → Option α} {tree : Tree} {a : α}
    (h : Recognizes read scopes interpret) (hfirst : LooksFirst read)
    (hs : scopes.head? ≠ some .object) (hdepth : tree.depth ≤ room scopes)
    (ha : interpret tree = some a) (position : Nat) (rest : Bytes) :
    read ⟨tree.bytes ++ rest, position, scopes, none, none⟩ =
      .ok a ⟨rest, position + tree.bytes.length, scopes, none, none⟩ := by
  have hpeek : peek ⟨tree.bytes ++ rest, position, scopes, none, none⟩ =
      .ok tree.token ⟨tree.payload ++ rest, position + 1, scopes, some tree.token, none⟩ :=
    peek_ok.mpr (.inl ⟨none, _, tree.startsValue_token, by simp [Names, hs],
      by rw [tree.tag_token]; rfl, rfl⟩)
  have hlength : position + tree.bytes.length = position + 1 + tree.payload.length := by
    rw [Tree.bytes, List.length_cons]
    omega
  rw [hlength]
  exact hfirst hpeek ((h _ _ _ _ _).mpr ⟨tree, rest, rfl, hdepth, ha, rfl, rfl⟩)

/-! ## 4. Whole streams -/

theorem finish_ok {token : Token} {rest : Bytes} :
    finish ⟨bytes, position, [], some token, none⟩ = .ok rest after ↔
      token = .endOfStream ∧ rest = bytes ∧
        after = ⟨bytes, position, [], some token, none⟩ := by
  unfold finish
  simp only [get_bind, scope?_mk, List.head?_nil, bind_ok, peek_of_peeked]
  constructor
  · rintro ⟨_, _, ⟨rfl, rfl⟩, h⟩
    cases token
    case endOfStream => exact ⟨rfl, pure_ok.mp h⟩
    all_goals exact (fail_ok.mp h).elim
  · rintro ⟨rfl, rfl, rfl⟩
    exact ⟨_, _, ⟨rfl, rfl⟩, rfl⟩

/-- The terminator is taken, and what stands after it is answered. -/
theorem finish_terminator {rest : Bytes} :
    finish ⟨0x00 :: rest, position, [], none, none⟩ =
      .ok rest ⟨rest, position + 1, [], some .endOfStream, none⟩ := rfl

theorem onBytes_ok {read : Read α} {a : α} :
    onBytes read bytes = .ok a ↔ ∃ after, read (ofBytes bytes) = .ok a after := by
  unfold onBytes
  simp only [EStateM.run]
  cases read (ofBytes bytes) <;> simp

end RemoteCall.Wire.Reader
