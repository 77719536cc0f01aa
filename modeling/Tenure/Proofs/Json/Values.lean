import Tenure.Json.Skim
import Tenure.Proofs.Json.Tokens

/-!
# Values are read over as they are spelled

A reader that looks for the end of a value, whose content does not matter, finds it where the
grammar says that the value ends: however deep lists and objects lie inside each other, and
whatever they hold. It keeps what is open on a stack, and behind every value it stands as it would
stand if nothing but the end of a value had been there.

## Main definitions

* `Json.Phrase.IsSkimmed` — a reader comes out of a phrase as it came in

## Main results

* `Json.Spells.isSkimmed` — the phrases of the grammar are read over
* `Json.skim_of_spells` — so a value is read over up to its end
-/

namespace Tenure.Json

variable {c : Char} {text rest blanks content : List Char} {frames outer : List Frame}
  {reader next opened start : Skim}

/-! ## Blanks -/

theorem isBlank_iff : isBlank c = true ↔ c = ' ' ∨ c = '\t' ∨ c = '\n' ∨ c = '\r' := by
  simp [isBlank, or_assoc]

theorem skipBlanks_of_isBlank (h : IsBlank blanks) (rest : List Char) :
    skipBlanks (blanks ++ rest) = skipBlanks rest :=
  List.dropWhile_append_of_pos h

theorem skipBlanks_cons (h : isBlank c = false) (rest : List Char) :
    skipBlanks (c :: rest) = c :: rest :=
  List.dropWhile_cons_of_neg (by rw [h]; exact Bool.false_ne_true)

namespace Skim

theorem behindFrom_cons (goesOn : reader.isOver c = false) (step : reader.step c = .ok next)
    (rest : List Char) : reader.behindFrom (c :: rest) = next.behindFrom rest := by
  rw [behindFrom, goesOn, step]
  rfl

/-- A reader that passes over blanks. -/
def PassesBlanks (reader : Skim) : Prop :=
  ∀ c, isBlank c = true → reader.isOver c = false ∧ reader.step c = .ok reader

theorem PassesBlanks.behindFrom (h : reader.PassesBlanks) (isBlank : IsBlank blanks)
    (rest : List Char) : reader.behindFrom (blanks ++ rest) = reader.behindFrom rest := by
  induction blanks with
  | nil => rfl
  | cons c blanks ih =>
    obtain ⟨goesOn, step⟩ := h c (isBlank c List.mem_cons_self)
    rw [List.cons_append, behindFrom_cons goesOn step]
    exact ih fun d mem => isBlank d (List.mem_cons_of_mem c mem)

theorem passesBlanks_colon (frames : List Frame) : (colon frames).PassesBlanks :=
  fun _ blank => ⟨rfl, if_pos blank⟩

/-- Behind a value inside a list or an object blanks are passed over. -/
theorem passesBlanks_ended (frame : Frame) (outer : List Frame) :
    (ended (frame :: outer)).PassesBlanks :=
  fun _ blank => ⟨rfl, if_pos blank⟩

/-! ## Tokens -/

theorem behindFrom_colon (frames : List Frame) (rest : List Char) :
    (colon frames).behindFrom (':' :: rest) = (value frames).behindFrom rest :=
  behindFrom_cons rfl rfl rest

theorem behindFrom_comma_list (outer : List Frame) (rest : List Char) :
    (ended (.list :: outer)).behindFrom (',' :: rest) = (value (.list :: outer)).behindFrom rest :=
  behindFrom_cons rfl rfl rest

theorem behindFrom_comma_object (outer : List Frame) (rest : List Char) :
    (ended (.object :: outer)).behindFrom (',' :: rest) =
      (key (.object :: outer)).behindFrom rest :=
  behindFrom_cons rfl rfl rest

theorem behindFrom_of_phaseWalks {phase last : Phase} (isKey : Bool)
    (h : Phase.Walks false phase text last content) (rest : List Char) :
    (Skim.text phase isKey frames).behindFrom (text ++ rest) =
      (Skim.text last isKey frames).behindFrom rest := by
  induction h with
  | done => rfl
  | quiet step rest ih | loud step rest ih =>
    rw [List.cons_append, behindFrom_cons rfl (by rw [Skim.step, step]), ih]

/-- The inside of a string and its closing quote are read over. -/
theorem behindFrom_string (isKey : Bool) (h : SpellsContent content text) (rest : List Char) :
    (Skim.text .plain isKey frames).behindFrom (text ++ '"' :: rest) =
      (if isKey then colon frames else ended frames).behindFrom rest := by
  obtain ⟨_, walks⟩ := h.walks_unpaired
  rw [behindFrom_of_phaseWalks isKey walks]
  exact behindFrom_cons rfl rfl rest

theorem behindFrom_of_literalWalks {literal last : Literal} (h : Literal.Walks literal text last)
    (rest : List Char) :
    (Skim.number literal frames).behindFrom (text ++ rest) =
      (Skim.number last frames).behindFrom rest := by
  induction h with
  | done => rfl
  | @step literal next last c text step _ ih =>
    have goesOn : (Skim.number literal frames).isOver c = false := by
      cases frames with
      | nil => simp only [isOver, step]
      | cons frame outer => rfl
    rw [List.cons_append, behindFrom_cons goesOn (by rw [Skim.step, step]), ih]

/-- Where a number may end, nothing else can be told of it. -/
theorem behindFrom_of_isComplete {literal : Literal} (complete : literal.isComplete = true)
    (delimited : IsDelimited rest) :
    (Skim.number literal frames).behindFrom rest = (Skim.ended frames).behindFrom rest := by
  cases rest with
  | nil => cases frames <;> simp [behindFrom, atEnd, complete]
  | cons c rest =>
    have ends := Literal.step_eq_none complete delimited
    cases frames with
    | nil =>
      have passed : (Skim.number literal []).isOver c = true := by simp only [isOver, ends]
      rw [behindFrom, if_pos passed]
      rfl
    | cons frame outer => simp only [behindFrom, isOver, Skim.step, ends]; rfl

/-! ## The begin of a value and of a key -/

/-- A reader for which a value is due, and possibly the end of a list instead. -/
inductive AwaitsValue (frames : List Frame) : Skim → Prop
  | value : AwaitsValue frames (value frames)
  | firstValue : AwaitsValue frames (firstValue frames)

/-- A reader for which a key is due, and possibly the end of an object instead. -/
inductive AwaitsKey (frames : List Frame) : Skim → Prop
  | key : AwaitsKey frames (key frames)
  | firstKey : AwaitsKey frames (firstKey frames)

theorem AwaitsValue.passesBlanks (h : AwaitsValue frames start) : start.PassesBlanks := by
  intro c blank
  cases h with
  | value | firstValue => exact ⟨rfl, if_pos blank⟩

theorem AwaitsKey.passesBlanks (h : AwaitsKey frames start) : start.PassesBlanks := by
  intro c blank
  cases h with
  | key | firstKey => exact ⟨rfl, if_pos blank⟩

/-- A value begins. -/
theorem AwaitsValue.open (h : AwaitsValue frames start) (opens : open? frames c = some opened)
    (rest : List Char) : start.behindFrom (c :: rest) = opened.behindFrom rest := by
  have notBlank : ¬ isBlank c = true := by
    intro blank
    rcases isBlank_iff.mp blank with rfl | rfl | rfl | rfl <;> cases opens
  have notEnd : c ≠ ']' := by
    rintro rfl
    cases opens
  cases h with
  | value => exact behindFrom_cons rfl (by rw [step, if_neg notBlank, opens]) rest
  | firstValue =>
    exact behindFrom_cons rfl (by rw [step, if_neg notBlank, if_neg notEnd, opens]) rest

/-- A key begins. -/
theorem AwaitsKey.open (h : AwaitsKey frames start) (rest : List Char) :
    start.behindFrom ('"' :: rest) = (Skim.text .plain true frames).behindFrom rest := by
  cases h with
  | key | firstKey => exact behindFrom_cons rfl rfl rest

theorem open?_ofFirst (first : c = '-' ∨ Text.isDigit c = true) :
    open? frames c = some (.number (.ofFirst c) frames) := by
  rcases first with rfl | isDigit
  · rfl
  · have ne (d : Char) (no : Text.isDigit d = false) : c ≠ d := ne_of_isDigit isDigit no
    simp [open?, Literal.ofFirst, isDigit, ne '[' rfl, ne '\x7b' rfl, ne '"' rfl, ne '-' rfl]

end Skim

open Skim

/-! ## Values -/

/-- A reader for which a phrase is due comes out of it as it comes out of any other one. -/
def Phrase.IsSkimmed (text : List Char) : Phrase → Prop
  | .value _ => ∀ {frames : List Frame} {start : Skim} {rest : List Char},
      AwaitsValue frames start → IsDelimited rest →
        start.behindFrom (text ++ rest) = (ended frames).behindFrom rest
  | .element _ => ∀ {frame : Frame} {outer : List Frame} {start : Skim} {rest : List Char},
      AwaitsValue (frame :: outer) start → IsDelimited rest →
        start.behindFrom (text ++ rest) = (ended (frame :: outer)).behindFrom rest
  | .elements inside => ∀ {outer : List Frame} {start : Skim} {rest : List Char},
      AwaitsValue (.list :: outer) start →
      (inside = [] → start = firstValue (.list :: outer)) →
        start.behindFrom (text ++ ']' :: rest) = (ended outer).behindFrom rest
  | .member _ => ∀ {outer : List Frame} {start : Skim} {rest : List Char},
      AwaitsKey (.object :: outer) start → IsDelimited rest →
        start.behindFrom (text ++ rest) = (ended (.object :: outer)).behindFrom rest
  | .members inside => ∀ {outer : List Frame} {start : Skim} {rest : List Char},
      AwaitsKey (.object :: outer) start →
      (inside = [] → start = firstKey (.object :: outer)) →
        start.behindFrom (text ++ '\x7d' :: rest) = (ended outer).behindFrom rest

theorem isDelimited_comma (rest : List Char) : IsDelimited (',' :: rest) := by
  rintro c ⟨⟩
  simp

theorem isDelimited_bracket (rest : List Char) : IsDelimited (']' :: rest) := by
  rintro c ⟨⟩
  simp

theorem isDelimited_brace (rest : List Char) : IsDelimited ('\x7d' :: rest) := by
  rintro c ⟨⟩
  simp

/-- The phrases of the grammar are read over. -/
theorem Spells.isSkimmed {phrase : Phrase} (h : Spells phrase text) : phrase.IsSkimmed text := by
  induction h with
  | null | yes | no =>
    intro frames start rest awaits delimited
    rw [List.cons_append, awaits.open rfl]
    simp [behindFrom, isOver, step]
  | number isNumber =>
    intro frames start rest awaits delimited
    obtain ⟨c, others, rfl, first, last, walks, complete⟩ := isNumber.walks
    rw [List.cons_append, awaits.open (open?_ofFirst first), behindFrom_of_literalWalks walks]
    exact behindFrom_of_isComplete complete delimited
  | text spelled =>
    intro frames start rest awaits delimited
    obtain ⟨inside, content, rfl⟩ := spelled
    rw [List.cons_append, awaits.open rfl, List.append_assoc]
    exact behindFrom_string false content rest
  | list spelled ih =>
    intro frames start rest awaits delimited
    rw [List.cons_append, awaits.open rfl, List.append_assoc]
    exact ih .firstValue fun _ => rfl
  | object spelled ih =>
    intro frames start rest awaits delimited
    rw [List.cons_append, awaits.open rfl, List.append_assoc]
    exact ih .firstKey fun _ => rfl
  | element isFront spelled isBack ih =>
    intro frame outer start rest awaits delimited
    rw [List.append_assoc, List.append_assoc, awaits.passesBlanks.behindFrom isFront,
      ih awaits (isDelimited_of_blank isBack delimited)]
    exact (passesBlanks_ended frame outer).behindFrom isBack rest
  | noElements isBlank =>
    intro outer start rest awaits first
    rw [first rfl, AwaitsValue.firstValue.passesBlanks.behindFrom isBlank]
    exact behindFrom_cons rfl rfl rest
  | oneElement spelled ih =>
    intro outer start rest awaits first
    rw [ih awaits (isDelimited_bracket rest)]
    exact behindFrom_cons rfl rfl rest
  | moreElements spelled behind ih ihBehind =>
    intro outer start rest awaits first
    rw [List.append_assoc, List.cons_append, ih awaits (isDelimited_comma _),
      behindFrom_comma_list]
    exact ihBehind .value fun none => absurd none (List.cons_ne_nil _ _)
  | member isFront isName isGap spelled ih =>
    intro outer start rest awaits delimited
    obtain ⟨inside, content, rfl⟩ := isName
    rw [List.append_assoc, awaits.passesBlanks.behindFrom isFront, List.append_assoc,
      List.cons_append, awaits.open, List.append_assoc, List.append_assoc]
    rw [List.singleton_append, behindFrom_string true content, if_pos rfl,
      (passesBlanks_colon _).behindFrom isGap, List.cons_append, behindFrom_colon]
    exact ih .value delimited
  | noMembers isBlank =>
    intro outer start rest awaits first
    rw [first rfl, AwaitsKey.firstKey.passesBlanks.behindFrom isBlank]
    exact behindFrom_cons rfl rfl rest
  | oneMember spelled ih =>
    intro outer start rest awaits first
    rw [ih awaits (isDelimited_brace rest)]
    exact behindFrom_cons rfl rfl rest
  | moreMembers spelled behind ih ihBehind =>
    intro outer start rest awaits first
    rw [List.append_assoc, List.cons_append, ih awaits (isDelimited_comma _),
      behindFrom_comma_object]
    exact ihBehind .key fun none => absurd none (List.cons_ne_nil _ _)

/-- A value is read over up to its end. -/
theorem skim_of_spells {value : Value} {front : List Char} (isFront : IsBlank front)
    (h : Spells (.value value) text) (delimited : IsDelimited rest) :
    skim (front ++ (text ++ rest)) = .ok rest := by
  have ended : (ended []).behindFrom rest = .ok rest := by
    cases rest with
    | nil => rfl
    | cons c rest => rfl
  rw [skim, AwaitsValue.value.passesBlanks.behindFrom isFront, h.isSkimmed .value delimited, ended]

end Tenure.Json
