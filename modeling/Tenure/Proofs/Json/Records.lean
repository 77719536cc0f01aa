import Mathlib.Data.List.Nodup
import Tenure.Json.Record
import Tenure.Proofs.Json.Values

/-!
# Records are read off their members

What is found of a record depends on the members of the object only: on their names and values, not
on how they are spelled, and not on those whose names are not known. A field is found if one member
has its name and a value that fits; it is left open if no member has its name. There is no other
way: two members with a known name, or a value that does not fit, and nothing is found at all.

The reader goes through the members once and keeps what it has found so far. So the argument has
two parts. The first follows the reader through the text and says what each member does to what was
found; the second turns this, field by field, into a statement about all the members at once.

## Main definitions

* `Json.Kind.Takes` — the values that fit a field, and what is found of them
* `Json.Schema.Notes`, `Json.Schema.Finds` — what one member and what all of them do
* `Json.Field.Turns`, `Json.Field.Fits` — what becomes of a single field, and whether it can

## Main results

* `Json.readScalar_iff` — the values of fields are read
* `Json.Spells.readMembers_iff` — the members of an object are read
* `Json.Schema.finds_iff` — each field is found for itself
* `Json.readRecord_iff` — what is found of a record
* `Json.exists_readRecord_iff` — which records are read at all
-/

namespace Tenure.Json

variable {c : Char} {text rest blanks behind : List Char} {kind : Kind} {value : Value}
  {scalar : Scalar} {schema : Schema} {field : Field} {found found' between : Found}
  {member : String × Value} {members : List (String × Value)} {entry entry' : Option Scalar}
  {place : Nat}

/-! ## Scalars -/

/-- The values that a field of some kind takes, and what is found of them. -/
inductive Kind.Takes : Kind → Value → Scalar → Prop
  | text {s : String} : Takes .text (.text s) (.text s)
  | natural {limit n : Nat} (below : n < limit) (fits : n ≤ wordMax) :
      Takes (.natural limit) (.natural n) (.natural n)

theorem Kind.Takes.unique {scalar' : Scalar} (h : kind.Takes value scalar)
    (h' : kind.Takes value scalar') : scalar = scalar' := by
  cases h with
  | text =>
    cases h'
    rfl
  | @natural limit n =>
    generalize hvalue : Value.natural n = value at h'
    cases h' with
    | natural => rw [Value.natural_injective hvalue]

/-- How a value begins, as far as a reader that looks for scalars tells one from another. -/
inductive Value.Opens : Value → Char → List Char → Prop
  | text {s : String} {inside : List Char} (content : SpellsContent s.toList inside) :
      Opens (.text s) '"' (inside ++ ['"'])
  | number {c : Char} {others : List Char} (isNumber : IsNumber (c :: others))
      (first : c = '-' ∨ Text.isDigit c = true) : Opens (.number (c :: others)) c others
  | other {value : Value} {c : Char} {others : List Char}
      (fitsNone : ∀ kind scalar, ¬ Kind.Takes kind value scalar) (noBlank : isBlank c = false)
      (noText : c ≠ '"') (noNumber : ¬ (c = '-' || Text.isDigit c) = true) : Opens value c others

theorem Spells.opens (h : Spells (.value value) text) :
    ∃ c others, text = c :: others ∧ value.Opens c others := by
  cases h with
  | null | yes | no | list | object =>
    refine ⟨_, _, rfl, .other ?_ rfl (by decide) (by decide)⟩
    rintro kind scalar ⟨⟩
  | text spelled =>
    obtain ⟨inside, content, rfl⟩ := spelled
    exact ⟨_, _, rfl, .text content⟩
  | number isNumber =>
    obtain ⟨c, others, rfl, first, -⟩ := isNumber.walks
    exact ⟨c, others, rfl, .number isNumber first⟩

theorem isBlank_of_isDigit (isDigit : Text.isDigit c = true) : isBlank c = false := by
  rw [← Bool.not_eq_true, isBlank_iff]
  have ne (d : Char) (no : Text.isDigit d = false) : c ≠ d := ne_of_isDigit isDigit no
  rintro (rfl | rfl | rfl | rfl) <;> cases isDigit

theorem Value.Opens.noBlank {others : List Char} (h : value.Opens c others) :
    isBlank c = false := by
  cases h with
  | text => rfl
  | number _ first =>
    rcases first with rfl | isDigit
    · rfl
    · exact isBlank_of_isDigit isDigit
  | other _ noBlank => exact noBlank

/-- A number is found as what it comes to if it is a natural number below the limit. -/
theorem takes_number_iff {limit : Nat} {literal : List Char} (isNumber : IsNumber literal)
    (nonempty : literal ≠ []) :
    (Kind.natural limit).Takes (.number literal) scalar ↔
      ∃ n, numeral literal = .ok (.natural n) ∧ n < limit ∧ scalar = .natural n := by
  constructor
  · intro takes
    generalize hvalue : Value.number literal = value at takes
    cases takes with
    | @natural limit n below fits =>
      obtain rfl : literal = Text.decimal n := Value.number.inj hvalue
      exact ⟨n, (numeral_eq_natural_iff nonempty).mpr ⟨Text.parseDecimal_decimal n, fits⟩, below,
        rfl⟩
  · rintro ⟨n, comesTo, below, rfl⟩
    obtain ⟨parsed, fits⟩ := (numeral_eq_natural_iff nonempty).mp comesTo
    rw [isNumber.eq_decimal parsed]
    exact .natural below fits

/-- A number is read for a field exactly if it fits the field. -/
theorem readScalar_number_iff {others : List Char} (isNumber : IsNumber (c :: others))
    (first : c = '-' ∨ Text.isDigit c = true) (delimited : IsDelimited rest) :
    readScalar kind (c :: others ++ rest) = .ok (scalar, behind) ↔
      kind.Takes (.number (c :: others)) scalar ∧ behind = rest := by
  have opens := Value.Opens.number isNumber first
  have isFirst : (c = '-' || Text.isDigit c) = true := by simpa using first
  have noText : c ≠ '"' := by
    rcases first with rfl | isDigit
    · decide
    · exact ne_of_isDigit isDigit rfl
  rw [readScalar, List.cons_append, skipBlanks_cons opens.noBlank]
  cases kind with
  | text =>
    simp only [if_neg noText]
    constructor
    · rintro ⟨⟩
    · rintro ⟨⟨⟩, -⟩
  | natural limit =>
    rw [takes_number_iff isNumber (List.cons_ne_nil c others)]
    simp only [isFirst, if_true, readNumber_of_isNumber isNumber delimited]
    cases hnumeral : numeral (c :: others) with
    | error fault => simp [Except.map]
    | ok numeral =>
      cases numeral with
      | other => simp [Except.map]
      | natural n =>
        by_cases below : n < limit
        · simp [Except.map, below, eq_comm]
        · simp [Except.map, below]

/-- Blanks before a value are passed over. -/
theorem readScalar_of_isBlank {front : List Char} (isFront : IsBlank front) (text : List Char) :
    readScalar kind (front ++ text) = readScalar kind text := by
  simp only [readScalar, skipBlanks_of_isBlank isFront]

/-- A value is read for a field exactly if it fits the field. -/
theorem readScalar_iff {front : List Char} (isFront : IsBlank front)
    (h : Spells (.value value) text) (delimited : IsDelimited rest) :
    readScalar kind (front ++ (text ++ rest)) = .ok (scalar, behind) ↔
      kind.Takes value scalar ∧ behind = rest := by
  rw [readScalar_of_isBlank isFront]
  obtain ⟨c, others, rfl, opens⟩ := h.opens
  cases opens with
  | text content =>
    rw [readScalar, List.cons_append, skipBlanks_cons rfl]
    cases kind with
    | text =>
      rw [List.append_assoc]
      simp only [if_true, List.singleton_append, readString_of_spells content]
      constructor
      · rintro ⟨⟩
        exact ⟨.text, rfl⟩
      · rintro ⟨⟨⟩, rfl⟩
        rfl
    | natural limit =>
      constructor
      · rintro ⟨⟩
      · rintro ⟨⟨⟩, -⟩
  | number isNumber first => exact readScalar_number_iff isNumber first delimited
  | other fitsNone noBlank noText noNumber =>
    rw [readScalar, List.cons_append, skipBlanks_cons noBlank]
    simp only [fitsNone, false_and, iff_false]
    cases kind with
    | text =>
      rw [if_neg noText]
      rintro ⟨⟩
    | natural limit =>
      simp only [if_neg noNumber]
      rintro ⟨⟩

/-! ## Members -/

/-- What a member does to what was found so far. -/
inductive Schema.Notes (schema : Schema) (found : Found) : String × Value → Found → Prop
  /-- Nothing, if its name is not known. -/
  | unknown {name : String} {value : Value} (isUnknown : schema.place? name = .none) :
      Notes schema found (name, value) found
  /-- It fills the place of its field, which must be open. -/
  | known {name : String} {value : Value} {place : Nat} {field : Field} {scalar : Scalar}
      (isPlace : schema.place? name = some place) (isField : schema.fields[place]? = some field)
      (isOpen : found[place]? = some .none) (takes : field.kind.Takes value scalar) :
      Notes schema found (name, value) (found.set place (some scalar))

/-- What the members of an object do, one after the other. -/
inductive Schema.Finds (schema : Schema) : Found → List (String × Value) → Found → Prop
  | nil {found : Found} : Finds schema found [] found
  | cons {found between found' : Found} {member : String × Value} {members : List (String × Value)}
      (first : schema.Notes found member between) (others : Finds schema between members found') :
      Finds schema found (member :: members) found'

theorem readColon_of_isBlank (h : IsBlank blanks) (rest : List Char) :
    readColon (blanks ++ ':' :: rest) = .ok rest := by
  rw [readColon, skipBlanks_of_isBlank h, skipBlanks_cons rfl]
  rfl

/-- Behind the quote with which its name begins, a member is read up to the end of its value. -/
theorem readMember_spelled_iff {name : String} {inside gap lead : List Char}
    (content : SpellsContent name.toList inside) (isGap : IsBlank gap) (isLead : IsBlank lead)
    (spelled : Spells (.value value) text) (delimited : IsDelimited rest) :
    readMember schema found (inside ++ '"' :: (gap ++ ':' :: (lead ++ (text ++ rest)))) =
        .ok (between, behind) ↔
      schema.Notes found (name, value) between ∧ behind = rest := by
  rw [readMember, readString_of_spells content]
  cases isPlace : schema.place? name with
  | none =>
    simp only [isPlace, readColon_of_isBlank isGap, skim_of_spells isLead spelled delimited]
    constructor
    · rintro ⟨⟩
      exact ⟨.unknown isPlace, rfl⟩
    · rintro ⟨notes, rfl⟩
      cases notes with
      | unknown => rfl
      | known isPlace' => cases isPlace.symm.trans isPlace'
  | some place =>
    simp only [isPlace, readColon_of_isBlank isGap]
    constructor
    · intro read
      split at read
      · rename_i field isField isOpen
        split at read
        · cases read
        · rename_i scalar behind scalarRead
          obtain ⟨rfl, rfl⟩ := Prod.mk.inj (Except.ok.inj read)
          obtain ⟨takes, rfl⟩ := (readScalar_iff isLead spelled delimited).mp scalarRead
          exact ⟨.known isPlace isField isOpen takes, rfl⟩
      · cases read
    · rintro ⟨notes, rfl⟩
      cases notes with
      | unknown isUnknown => cases isPlace.symm.trans isUnknown
      | known isPlace' isField isOpen takes =>
        obtain rfl := Option.some.inj (isPlace.symm.trans isPlace')
        have scalarRead := (readScalar_iff isLead spelled delimited).mpr ⟨takes, rfl⟩
        simp only [isField, isOpen, scalarRead]

/-- A member is read up to the blanks behind its value. -/
theorem Spells.readMember_iff (h : Spells (.member member) text) :
    ∃ front inside back, IsBlank front ∧ IsBlank back ∧ text = front ++ '"' :: inside ∧
      ∀ {rest : List Char}, IsDelimited rest → ∀ schema found between behind,
        (readMember schema found (inside ++ rest) = .ok (between, behind) ↔
          schema.Notes found member between ∧ behind = back ++ rest) := by
  cases h with
  | @member name value front quoted gap text isFront isName isGap element =>
    obtain ⟨inside, content, rfl⟩ := isName
    cases element with
    | @element value lead text back isLead spelled isBack =>
      refine ⟨front, inside ++ '"' :: (gap ++ ':' :: (lead ++ (text ++ back))), back, isFront,
        isBack, by simp, ?_⟩
      intro rest delimited schema found between behind
      have shape : inside ++ '"' :: (gap ++ ':' :: (lead ++ (text ++ back))) ++ rest =
          inside ++ '"' :: (gap ++ ':' :: (lead ++ (text ++ (back ++ rest)))) := by simp
      rw [shape]
      exact readMember_spelled_iff content isGap isLead spelled
        (isDelimited_of_blank isBack delimited)

/-- What stands before a member: a comma, if it is not the first one. -/
def behindComma (first : Bool) (text : List Char) : List Char := if first then text else ',' :: text

/-- The reader of members reads one, at its opening quote, and goes on with the others. -/
theorem readMembers_behindComma {inside : List Char} (isBlanks : IsBlank blanks)
    (quote : skipBlanks text = '"' :: inside) (more : Nat) (first : Bool) :
    readMembers schema (more + 1) first found (blanks ++ behindComma first text) =
      (readMember schema found inside).bind fun read =>
        readMembers schema more false read.1 read.2 := by
  rw [readMembers, skipBlanks_of_isBlank isBlanks]
  cases first with
  | true =>
    rw [behindComma, if_pos rfl, quote]
    simp only [Char.reduceEq, if_false, Bool.true_and, decide_true, if_true]
    cases readMember schema found inside <;> rfl
  | false =>
    rw [behindComma, if_neg Bool.false_ne_true, skipBlanks_cons rfl]
    simp only [quote, Char.reduceEq, if_false, Bool.false_and, Bool.false_eq_true, Bool.not_false,
      Bool.true_and, decide_true, if_true]
    cases readMember schema found inside <;> rfl

/-- The reader of members goes on behind each of them. -/
theorem Spells.readMembers_step (h : Spells (.member member) text) :
    ∃ back, IsBlank back ∧ ∀ {blanks rest : List Char}, IsBlank blanks → IsDelimited rest →
      ∀ schema more first found result,
        (readMembers schema (more + 1) first found
            (blanks ++ behindComma first (text ++ rest)) = .ok result ↔
          ∃ between, schema.Notes found member between ∧
            readMembers schema more false between (back ++ rest) = .ok result) := by
  obtain ⟨front, inside, back, isFront, isBack, rfl, reads⟩ := h.readMember_iff
  refine ⟨back, isBack, ?_⟩
  intro blanks rest isBlanks delimited schema more first found result
  have reads := fun between behind => reads delimited schema found between behind
  have quote : skipBlanks (front ++ '"' :: inside ++ rest) = '"' :: (inside ++ rest) := by
    rw [List.append_assoc, skipBlanks_of_isBlank isFront, List.cons_append, skipBlanks_cons rfl]
  rw [readMembers_behindComma isBlanks quote]
  constructor
  · intro read
    cases memberRead : readMember schema found (inside ++ rest) with
    | error fault =>
      rw [memberRead] at read
      exact nomatch read
    | ok answered =>
      obtain ⟨notes, behind⟩ := (reads answered.1 answered.2).mp memberRead
      rw [memberRead] at read
      exact ⟨answered.1, notes, behind ▸ read⟩
  · rintro ⟨between, notes, read⟩
    rw [(reads between _).mpr ⟨notes, rfl⟩]
    exact read

theorem IsBlank.append (h : IsBlank blanks) (h' : IsBlank text) : IsBlank (blanks ++ text) :=
  fun c mem => (List.mem_append.mp mem).elim (h c) (h' c)

/-- At the closing brace it must be enough what was found. -/
theorem readMembers_end (h : IsBlank blanks) (more : Nat) (first : Bool) :
    readMembers schema (more + 1) first found (blanks ++ '\x7d' :: rest) = .ok (found', behind) ↔
      schema.complete found = .ok found' ∧ behind = rest := by
  rw [readMembers, skipBlanks_of_isBlank h, skipBlanks_cons rfl]
  simp only [if_true]
  cases schema.complete found with
  | error fault => simp
  | ok found => simp [eq_comm]

theorem Schema.finds_nil_iff : schema.Finds found [] found' ↔ found = found' := by
  constructor
  · rintro ⟨⟩
    rfl
  · rintro rfl
    exact .nil

theorem Schema.finds_cons_iff :
    schema.Finds found (member :: members) found' ↔
      ∃ between, schema.Notes found member between ∧ schema.Finds between members found' := by
  constructor
  · rintro ⟨⟩
    exact ⟨_, ‹_›, ‹_›⟩
  · rintro ⟨between, notes, finds⟩
    exact .cons notes finds

/-- The members of an object are read one after the other. -/
theorem Spells.readMembers_iff (h : Spells (.members members) text) (schema : Schema)
    (rest : List Char) : ∀ {blanks : List Char}, IsBlank blanks →
      ∀ more, members.length < more → ∀ first, (members = [] → first = true) →
        ∀ found found' behind, (readMembers schema more first found
            (blanks ++ behindComma first (text ++ '\x7d' :: rest)) = .ok (found', behind) ↔
          ∃ last, schema.Finds found members last ∧ schema.complete last = .ok found' ∧
            behind = rest) := by
  generalize hphrase : Phrase.members members = phrase at h
  induction h generalizing members with
  | noMembers isBlank =>
    intro blanks isBlanks more enough first isFirst found found' behind
    cases hphrase
    obtain ⟨more, rfl⟩ := Nat.exists_eq_add_one.mpr enough
    obtain rfl := isFirst rfl
    rw [behindComma, if_pos rfl, ← List.append_assoc, readMembers_end (isBlanks.append isBlank)]
    constructor
    · rintro ⟨complete, rfl⟩
      exact ⟨found, .nil, complete, rfl⟩
    · rintro ⟨last, ⟨⟩, complete, rfl⟩
      exact ⟨complete, rfl⟩
  | oneMember spelled =>
    intro blanks isBlanks more enough first isFirst found found' behind
    cases hphrase
    obtain ⟨more, rfl⟩ := Nat.exists_eq_add_one.mpr (Nat.zero_lt_of_lt enough)
    obtain ⟨more, rfl⟩ := Nat.exists_eq_add_one.mpr (Nat.lt_of_succ_lt_succ enough)
    obtain ⟨back, isBack, step⟩ := spelled.readMembers_step
    rw [step isBlanks (isDelimited_brace rest)]
    simp only [readMembers_end isBack, Schema.finds_cons_iff, Schema.finds_nil_iff, exists_eq_right]
  | @moreMembers member next others text textBehind spelled _ _ ih =>
    intro blanks isBlanks more enough first isFirst found found' behind
    cases hphrase
    obtain ⟨more, rfl⟩ := Nat.exists_eq_add_one.mpr (Nat.zero_lt_of_lt enough)
    obtain ⟨back, isBack, step⟩ := spelled.readMembers_step
    -- behind a member that is not the last one there is a comma
    have goesOn := ih rfl isBack more (Nat.lt_of_succ_lt_succ enough) false
      fun none => absurd none (List.cons_ne_nil next others)
    rw [List.append_assoc, List.cons_append, step isBlanks (isDelimited_comma _)]
    constructor
    · rintro ⟨between, notes, read⟩
      obtain ⟨last, finds, ends⟩ := (goesOn between found' behind).mp read
      exact ⟨last, .cons notes finds, ends⟩
    · rintro ⟨last, finds, ends⟩
      obtain ⟨between, notes, finds⟩ := Schema.finds_cons_iff.mp finds
      exact ⟨between, notes, (goesOn between found' behind).mpr ⟨last, finds, ends⟩⟩
  | _ => cases hphrase

theorem Spells.length_members_le (h : Spells (.members members) text) :
    members.length ≤ text.length := by
  generalize hphrase : Phrase.members members = phrase at h
  have pos {member : String × Value} {text : List Char} (h : Spells (.member member) text) :
      0 < text.length := by
    cases h
    simp only [List.length_append, List.length_cons]
    omega
  induction h generalizing members with
  | noMembers =>
    cases hphrase
    exact Nat.zero_le _
  | oneMember spelled =>
    cases hphrase
    exact pos spelled
  | moreMembers spelled _ _ ih =>
    cases hphrase
    have := pos spelled
    have := ih rfl
    simp only [List.length_cons, List.length_append] at *
    omega
  | _ => cases hphrase

/-! ## Fields -/

/-- What becomes of a field. -/
inductive Field.Turns (field : Field) (members : List (String × Value)) :
    Option Scalar → Option Scalar → Prop
  /-- Nothing, if no member has its name. -/
  | stays {entry : Option Scalar} (absent : field.name ∉ members.map Prod.fst) :
      Turns field members entry entry
  /-- If one member has its name and a value that fits, it is found. -/
  | found {value : Value} {scalar : Scalar} (mem : (field.name, value) ∈ members)
      (once : (members.map Prod.fst).count field.name = 1) (takes : field.kind.Takes value scalar) :
      Turns field members .none (some scalar)

theorem Field.turns_nil_iff : field.Turns [] entry entry' ↔ entry = entry' := by
  constructor
  · rintro (_ | ⟨mem, -, -⟩)
    · rfl
    · cases mem
  · rintro rfl
    exact .stays List.not_mem_nil

/-- A member of another name does not matter. -/
theorem Field.turns_cons_of_ne (ne : member.1 ≠ field.name) :
    field.Turns (member :: members) entry entry' ↔ field.Turns members entry entry' := by
  constructor
  · rintro (⟨absent⟩ | ⟨mem, once, takes⟩)
    · exact .stays fun mem => absent (List.mem_cons_of_mem _ mem)
    · refine .found ?_ (by simpa [List.count_cons, ne] using once) takes
      rcases List.mem_cons.mp mem with rfl | mem
      · exact absurd rfl ne
      · exact mem
  · rintro (⟨absent⟩ | ⟨mem, once, takes⟩)
    · refine .stays fun mem => ?_
      rcases List.mem_cons.mp mem with eq | mem
      · exact ne eq.symm
      · exact absent mem
    · exact .found (List.mem_cons_of_mem _ mem) (by simpa [List.count_cons, ne] using once) takes

/-- A member of its name must find it open, and be the only one. -/
theorem Field.turns_cons_of_eq (eq : member.1 = field.name) :
    field.Turns (member :: members) entry entry' ↔
      entry = .none ∧ ∃ scalar, field.kind.Takes member.2 scalar ∧
        field.Turns members (some scalar) entry' := by
  obtain ⟨name, value⟩ := member
  obtain rfl : name = field.name := eq
  constructor
  · rintro (⟨absent⟩ | ⟨mem, once, takes⟩)
    · exact absurd List.mem_cons_self absent
    · have absent : field.name ∉ members.map Prod.fst := by
        rw [List.map_cons, List.count_cons_self] at once
        exact List.count_eq_zero.mp (Nat.succ_injective once)
      rcases List.mem_cons.mp mem with same | mem
      · cases same
        exact ⟨rfl, _, takes, .stays absent⟩
      · exact absurd (List.mem_map_of_mem mem) absent
  · rintro ⟨rfl, scalar, takes, ⟨absent⟩⟩
    have once : (((field.name, value) :: members).map Prod.fst).count field.name = 1 := by
      rw [List.map_cons, List.count_cons_self, List.count_eq_zero.mpr absent]
    exact .found List.mem_cons_self once takes

theorem Schema.place?_eq_some_iff (distinct : (schema.fields.map Field.name).Nodup)
    {name : String} : schema.place? name = some place ↔
      ∃ field, schema.fields[place]? = some field ∧ field.name = name := by
  rw [place?, List.findIdx?_eq_some_iff_getElem]
  constructor
  · rintro ⟨lt, same, -⟩
    exact ⟨_, List.getElem?_eq_getElem lt, beq_iff_eq.mp same⟩
  · rintro ⟨field, isField, rfl⟩
    obtain ⟨lt, rfl⟩ := List.getElem?_eq_some_iff.mp isField
    refine ⟨lt, beq_self_eq_true _, ?_⟩
    intro before isBefore same
    have lt' : before < schema.fields.length := Nat.lt_trans isBefore lt
    have sameField : schema.fields[before] = schema.fields[place] :=
      List.inj_on_of_nodup_map distinct (List.getElem_mem lt') (List.getElem_mem lt)
        (beq_iff_eq.mp same)
    have samePlace : before = place :=
      (List.Nodup.getElem_inj_iff (List.Nodup.of_map _ distinct)).mp sameField
    exact absurd samePlace (Nat.ne_of_lt isBefore)

theorem Schema.place?_eq_none_iff {name : String} :
    schema.place? name = .none ↔ ∀ field ∈ schema.fields, field.name ≠ name := by
  simp [place?, List.findIdx?_eq_none_iff]

/-- Each field for itself has turned from what was found before to what is found now. -/
structure Schema.TurnsEach (schema : Schema) (members : List (String × Value))
    (found found' : Found) : Prop where
  sized : found'.length = schema.fields.length
  turns : ∀ {place : Nat} {field : Field} {entry entry' : Option Scalar},
    schema.fields[place]? = some field → found[place]? = some entry →
      found'[place]? = some entry' → field.Turns members entry entry'

/-- A member whose name is not known turns no field. -/
theorem Schema.turnsEach_unknown (isUnknown : schema.place? member.1 = .none) :
    schema.TurnsEach (member :: members) found found' ↔ schema.TurnsEach members found found' := by
  have ne {place : Nat} {field : Field} (isField : schema.fields[place]? = some field) :
      member.1 ≠ field.name :=
    (place?_eq_none_iff.mp isUnknown field (List.mem_of_getElem? isField)).symm
  constructor
  · rintro ⟨sized, turns⟩
    exact ⟨sized, fun isField before now =>
      (Field.turns_cons_of_ne (ne isField)).mp (turns isField before now)⟩
  · rintro ⟨sized, turns⟩
    exact ⟨sized, fun isField before now =>
      (Field.turns_cons_of_ne (ne isField)).mpr (turns isField before now)⟩

/-- A member whose name is known fills the place of its field. -/
theorem Schema.turnsEach_known (distinct : (schema.fields.map Field.name).Nodup)
    (isPlace : schema.place? member.1 = some place) (isField : schema.fields[place]? = some field)
    (isOpen : found[place]? = some .none) (takes : field.kind.Takes member.2 scalar) :
    schema.TurnsEach (member :: members) found found' ↔
      schema.TurnsEach members (found.set place (some scalar)) found' := by
  have own : member.1 = field.name := by
    obtain ⟨field', isField', name⟩ := (place?_eq_some_iff distinct).mp isPlace
    cases isField.symm.trans isField'
    exact name.symm
  have other {place' : Nat} {field' : Field} (ne : place ≠ place')
      (isField' : schema.fields[place']? = some field') : member.1 ≠ field'.name := by
    intro eq
    have isPlace' := (place?_eq_some_iff distinct).mpr ⟨field', isField', eq.symm⟩
    exact ne (Option.some.inj (isPlace.symm.trans isPlace'))
  have filled : (found.set place (some scalar))[place]? = some (some scalar) := by
    rw [List.getElem?_set_self', isOpen]
    rfl
  constructor
  · rintro ⟨sized, turns⟩
    refine ⟨sized, ?_⟩
    intro place' field' entry entry' isField' before now
    by_cases same : place = place'
    · subst same
      cases isField.symm.trans isField'
      cases filled.symm.trans before
      obtain ⟨-, scalar', takes', turns⟩ :=
        (Field.turns_cons_of_eq own).mp (turns isField isOpen now)
      rwa [takes.unique takes']
    · rw [List.getElem?_set_ne same] at before
      exact (Field.turns_cons_of_ne (other same isField')).mp (turns isField' before now)
  · rintro ⟨sized, turns⟩
    refine ⟨sized, ?_⟩
    intro place' field' entry entry' isField' before now
    by_cases same : place = place'
    · subst same
      cases isField.symm.trans isField'
      cases isOpen.symm.trans before
      exact (Field.turns_cons_of_eq own).mpr ⟨rfl, scalar, takes, turns isField filled now⟩
    · rw [← List.getElem?_set_ne same] at before
      exact (Field.turns_cons_of_ne (other same isField')).mpr (turns isField' before now)

/-- Without members nothing turns. -/
theorem Schema.turnsEach_nil (sized : found.length = schema.fields.length) :
    schema.TurnsEach [] found found' ↔ found = found' := by
  constructor
  · rintro ⟨sized', turns⟩
    refine List.ext_getElem (sized.trans sized'.symm) ?_
    intro place lt lt'
    have isField := List.getElem?_eq_getElem (sized ▸ lt)
    have same := turns isField (List.getElem?_eq_getElem lt) (List.getElem?_eq_getElem lt')
    exact Field.turns_nil_iff.mp same
  · rintro rfl
    refine ⟨sized, ?_⟩
    intro place field entry entry' _ before now
    exact Field.turns_nil_iff.mpr (Option.some.inj (before.symm.trans now))

/-- What is found depends on each field for itself. -/
theorem Schema.finds_iff (distinct : (schema.fields.map Field.name).Nodup)
    (sized : found.length = schema.fields.length) :
    schema.Finds found members found' ↔ schema.TurnsEach members found found' := by
  induction members generalizing found with
  | nil => rw [finds_nil_iff, turnsEach_nil sized]
  | cons member members ih =>
    rw [finds_cons_iff]
    constructor
    · rintro ⟨between, notes, finds⟩
      cases notes with
      | unknown isUnknown => exact (turnsEach_unknown isUnknown).mpr ((ih sized).mp finds)
      | known isPlace isField isOpen takes =>
        exact (turnsEach_known distinct isPlace isField isOpen takes).mpr
          ((ih (List.length_set.trans sized)).mp finds)
    · intro each
      cases isPlace : schema.place? member.1 with
      | none =>
        exact ⟨found, .unknown isPlace, (ih sized).mpr ((turnsEach_unknown isPlace).mp each)⟩
      | some place =>
        obtain ⟨field, isField, own⟩ := (place?_eq_some_iff distinct).mp isPlace
        obtain ⟨lt, -⟩ := List.getElem?_eq_some_iff.mp isField
        have before := List.getElem?_eq_getElem (sized ▸ lt : place < found.length)
        have now := List.getElem?_eq_getElem (each.sized ▸ lt : place < found'.length)
        -- the member itself tells that the place is open and that its value fits
        obtain ⟨isOpen, scalar, takes, -⟩ :=
          (Field.turns_cons_of_eq own.symm).mp (each.turns isField before now)
        rw [isOpen] at before
        exact ⟨_, .known isPlace isField before takes, (ih (List.length_set.trans sized)).mpr
          ((turnsEach_known distinct isPlace isField before takes).mp each)⟩

/-- The members leave no doubt about a field: at most one has its name, and its value fits. -/
structure Field.Fits (field : Field) (members : List (String × Value)) : Prop where
  once : (members.map Prod.fst).count field.name ≤ 1
  takes : ∀ value, (field.name, value) ∈ members → ∃ scalar, field.kind.Takes value scalar

/-- If one member has a name then all that have it are this one. -/
theorem eq_of_count_eq_one {name : String} {value value' : Value}
    (once : (members.map Prod.fst).count name = 1) (mem : (name, value) ∈ members)
    (mem' : (name, value') ∈ members) : value = value' := by
  induction members with
  | nil => cases mem
  | cons member members ih =>
    rw [List.map_cons] at once
    by_cases eq : member.1 = name
    · -- it is the first one, and no other one has the name
      rw [eq, List.count_cons_self] at once
      have absent := List.count_eq_zero.mp (Nat.succ_injective once)
      have isFirst {value : Value} (mem : (name, value) ∈ member :: members) :
          (name, value) = member :=
        (List.mem_cons.mp mem).resolve_right fun mem => absent (List.mem_map_of_mem mem)
      exact congrArg Prod.snd ((isFirst mem).trans (isFirst mem').symm)
    · rw [List.count_cons_of_ne eq] at once
      have isLater {value : Value} (mem : (name, value) ∈ member :: members) :
          (name, value) ∈ members :=
        (List.mem_cons.mp mem).resolve_left fun same => eq (congrArg Prod.fst same).symm
      exact ih once (isLater mem) (isLater mem')

/-- A field comes to something exactly if the members leave no doubt about it. -/
theorem Field.exists_turns_iff :
    (∃ entry, field.Turns members .none entry) ↔ field.Fits members := by
  constructor
  · rintro ⟨entry, ⟨absent⟩ | ⟨mem, once, takes⟩⟩
    · refine ⟨(List.count_eq_zero.mpr absent).trans_le (Nat.zero_le 1), ?_⟩
      intro value mem
      exact absurd (List.mem_map_of_mem mem) absent
    · refine ⟨once.le, ?_⟩
      intro value mem'
      rw [eq_of_count_eq_one once mem' mem]
      exact ⟨_, takes⟩
  · rintro ⟨once, takes⟩
    by_cases absent : field.name ∉ members.map Prod.fst
    · exact ⟨.none, .stays absent⟩
    · obtain ⟨⟨name, value⟩, mem, rfl⟩ := List.mem_map.mp (not_not.mp absent)
      obtain ⟨scalar, takes⟩ := takes value mem
      have pos := List.count_pos_iff.mpr (not_not.mp absent)
      exact ⟨some scalar, .found mem (Nat.le_antisymm once pos) takes⟩

/-! ## Records -/

/-- From nothing found, the fields turn each for itself. -/
theorem Schema.turnsEach_none_iff :
    schema.TurnsEach members schema.none found ↔
      List.Forall₂ (fun field entry => field.Turns members .none entry) schema.fields found := by
  have before {place : Nat} (lt : place < schema.fields.length) :
      schema.none[place]? = some .none := by simp [Schema.none, lt]
  rw [List.forall₂_iff_get]
  constructor
  · rintro ⟨sized, turns⟩
    refine ⟨sized.symm, ?_⟩
    intro place lt lt'
    exact turns (List.getElem?_eq_getElem lt) (before lt) (List.getElem?_eq_getElem lt')
  · rintro ⟨sized, turns⟩
    refine ⟨sized.symm, ?_⟩
    intro place field entry entry' isField isOpen now
    obtain ⟨lt, rfl⟩ := List.getElem?_eq_some_iff.mp isField
    obtain ⟨lt', rfl⟩ := List.getElem?_eq_some_iff.mp now
    obtain rfl := Option.some.inj (isOpen.symm.trans (before lt))
    exact turns place lt lt'

/-- What is found from nothing on, field by field. -/
theorem Schema.finds_none_iff (distinct : (schema.fields.map Field.name).Nodup) :
    schema.Finds schema.none members found ↔
      List.Forall₂ (fun field entry => field.Turns members .none entry) schema.fields found := by
  have sized : schema.none.length = schema.fields.length := List.length_map _
  rw [finds_iff distinct sized, turnsEach_none_iff]

theorem Schema.eq_of_complete (h : schema.complete found = .ok found') : found = found' := by
  rw [complete] at h
  split at h
  · cases h
  · exact Except.ok.inj h

/-- What is found of a record: each of its fields, if one member has its name and its value fits,
and nothing of a field whose name no member has. -/
theorem readRecord_iff (distinct : (schema.fields.map Field.name).Nodup)
    (h : IsObject members text) :
    readRecord schema text = .ok found ↔
      List.Forall₂ (fun field entry => field.Turns members .none entry) schema.fields found ∧
        schema.complete found = .ok found := by
  cases h with
  | @intro front inside back isFront spelled isBack =>
    have enough : members.length < (inside ++ '\x7d' :: back).length + 1 := by
      have := spelled.length_members_le
      simp only [List.length_append, List.length_cons]
      omega
    have reads := spelled.readMembers_iff schema back isBlank_nil _ enough true (fun _ => rfl)
      schema.none
    simp only [behindComma, if_true, List.nil_append, Schema.finds_none_iff distinct] at reads
    have noRest : skipBlanks back = [] := List.dropWhile_eq_nil_iff.mpr isBack
    rw [readRecord, skipBlanks_of_isBlank isFront, skipBlanks_cons rfl]
    simp only [if_true]
    constructor
    · intro read
      split at read
      · cases read
      · rename_i between behind membersRead
        obtain ⟨last, each, complete, rfl⟩ := (reads between behind).mp membersRead
        obtain rfl := Schema.eq_of_complete complete
        rw [noRest] at read
        obtain rfl := Except.ok.inj read
        exact ⟨each, complete⟩
    · rintro ⟨each, complete⟩
      rw [(reads found back).mpr ⟨found, each, complete, rfl⟩]
      simp [noRest]

/-- A record of which nothing is required is read exactly if its members leave no doubt about any
of its fields. -/
theorem exists_readRecord_iff (distinct : (schema.fields.map Field.name).Nodup)
    (optional : schema.required = false) (h : IsObject members text) :
    (∃ found, readRecord schema text = .ok found) ↔
      ∀ field ∈ schema.fields, field.Fits members := by
  have complete (found : Found) : schema.complete found = .ok found := by
    simp [Schema.complete, optional]
  simp only [readRecord_iff distinct h, complete, and_true, ← Field.exists_turns_iff]
  generalize schema.fields = fields
  induction fields with
  | nil => simp
  | cons field fields ih =>
    simp only [List.forall_mem_cons, ← ih, List.forall₂_cons_left_iff]
    constructor
    · rintro ⟨_, entry, found, turns, others, -⟩
      exact ⟨⟨entry, turns⟩, found, others⟩
    · rintro ⟨⟨entry, turns⟩, found, others⟩
      exact ⟨_, entry, found, turns, others, rfl⟩

end Tenure.Json
