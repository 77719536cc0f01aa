import Mathlib.Data.List.Basic
import Mathlib.Data.List.TakeWhile
import Tenure.Host
import Tenure.Proofs.Text.Decimal

/-!
# Which texts name a host and a port

A text names a host and a port if it is made up of opening brackets, the host, closing brackets, a
colon and a number, in this order. There may be any number of brackets on either side, and as many
on one side as on the other or not; the host is what stands between them. A text can be taken apart
in this way in no more than one manner, though a host may hold colons and brackets of its own.

## Main definitions

* `HostAndPort.Bare` — a host without brackets before and behind it
* `HostAndPort.Numeral` — a text that is a number
* `HostAndPort.Spelling` — a host and a port with the brackets and digits of a text
* `HostAndPort.Hostless` — a text with nothing but brackets before its last colon

## Main results

* `splitAtLastColon_eq_some_iff`, `splitAtLastColon_eq_none_iff` — where a text is split
* `parsePort_eq_some_iff` — which texts are read as ports
* `Spelling.chars_injective` — a text is taken apart in one manner
* `parse_of_noColon`, `parse_of_hostless`, `parse_of_spelling`, `parse_cases` — what comes of a text
* `parse_follows_grammar` — all of this together, as whoever has a text read is told of it
-/

namespace Tenure.HostAndPort

/-! ## Brackets on one side -/

section

variable {c : Char} {n m : Nat} {text other : List Char}

private theorem head?_dropWhile_ne (c : Char) (text : List Char) :
    (text.dropWhile (· = c)).head? ≠ some c := by
  intro head
  have stop := List.head?_dropWhile_not (fun d => decide (d = c)) text
  rw [head] at stop
  simp at stop

private theorem exists_eq_replicate_append (c : Char) (text : List Char) :
    ∃ n, text = List.replicate n c ++ text.dropWhile (· = c) := by
  refine ⟨(text.takeWhile (· = c)).length, ?_⟩
  have same : text.takeWhile (· = c) = List.replicate (text.takeWhile (· = c)).length c :=
    List.eq_replicate_of_mem fun d mem => by simpa using List.mem_takeWhile_imp mem
  rw [← same, List.takeWhile_append_dropWhile]

private theorem dropWhile_replicate_append (head : text.head? ≠ some c) :
    (List.replicate n c ++ text).dropWhile (· = c) = text := by
  rw [List.dropWhile_append_of_pos fun d mem => by simpa using List.eq_of_mem_replicate mem]
  cases text with
  | nil => rfl
  | cons d text => exact List.dropWhile_cons_of_neg (by simpa using head)

/-- How many times a character stands in front of a text that does not begin with it can be told
from the whole, and so can the text. -/
private theorem replicate_append_inj (head : text.head? ≠ some c) (head' : other.head? ≠ some c)
    (same : List.replicate n c ++ text = List.replicate m c ++ other) : n = m ∧ text = other := by
  have rest : text = other := by
    rw [← dropWhile_replicate_append (n := n) head, same, dropWhile_replicate_append head']
  have length := congrArg List.length same
  simp only [rest, List.length_append, List.length_replicate] at length
  exact ⟨by omega, rest⟩

end

/-! ## Hosts and their brackets -/

/-- A host as it is without the brackets before and behind it: there is something, and no bracket
that could still be dropped. -/
structure Bare (host : List Char) : Prop where
  nonempty : host ≠ []
  front : host.head? ≠ some '['
  back : host.getLast? ≠ some ']'

instance (host : List Char) : Decidable (Bare host) :=
  decidable_of_iff (host ≠ [] ∧ host.head? ≠ some '[' ∧ host.getLast? ≠ some ']')
    ⟨fun ⟨nonempty, front, back⟩ => ⟨nonempty, front, back⟩,
      fun bare => ⟨bare.nonempty, bare.front, bare.back⟩⟩

/-- A host with so many brackets before and behind it. -/
def enclose (opening : Nat) (host : List Char) (closing : Nat) : List Char :=
  List.replicate opening '[' ++ host ++ List.replicate closing ']'

section

variable {opening closing opening' closing' : Nat} {host host' text : List Char}

private theorem Bare.front_append (bare : Bare host) (behind : List Char) :
    (host ++ behind).head? ≠ some '[' := by
  rw [List.head?_append_of_ne_nil host bare.nonempty]
  exact bare.front

private theorem Bare.front_reverse (bare : Bare host) : host.reverse.head? ≠ some ']' := by
  rw [List.head?_reverse]
  exact bare.back

/-- How many brackets there are on each side can be told from the whole, and so can the host. -/
theorem enclose_inj (bare : Bare host) (bare' : Bare host')
    (same : enclose opening host closing = enclose opening' host' closing') :
    opening = opening' ∧ host = host' ∧ closing = closing' := by
  rw [enclose, enclose, List.append_assoc, List.append_assoc] at same
  obtain ⟨front, rest⟩ :=
    replicate_append_inj (bare.front_append _) (bare'.front_append _) same
  have mirrored := congrArg List.reverse rest
  rw [List.reverse_append, List.reverse_append, List.reverse_replicate,
    List.reverse_replicate] at mirrored
  obtain ⟨back, hosts⟩ :=
    replicate_append_inj bare.front_reverse bare'.front_reverse mirrored
  exact ⟨front, List.reverse_inj.mp hosts, back⟩

/-- The brackets around a host are dropped, and only these. -/
theorem trimBrackets_enclose (bare : Bare host) :
    trimBrackets (enclose opening host closing) = host := by
  rw [trimBrackets, enclose, List.append_assoc, dropWhile_replicate_append (bare.front_append _),
    List.reverse_append, List.reverse_replicate, dropWhile_replicate_append bare.front_reverse,
    List.reverse_reverse]

/-- Where there are only brackets, opening ones first, nothing is left. -/
theorem trimBrackets_enclose_nil : trimBrackets (enclose opening [] closing) = [] := by
  have front : (List.replicate closing ']').head? ≠ some '[' := by
    cases closing <;> simp [List.replicate_succ]
  rw [trimBrackets, enclose, List.append_nil, dropWhile_replicate_append front,
    List.reverse_replicate, List.reverse_eq_nil_iff, List.dropWhile_eq_nil_iff]
  intro c mem
  simpa using List.eq_of_mem_replicate mem

private theorem exists_dropWhile_eq (text : List Char) :
    ∃ closing, text.dropWhile (· = '[') = trimBrackets text ++ List.replicate closing ']' := by
  obtain ⟨closing, back⟩ := exists_eq_replicate_append ']' (text.dropWhile (· = '[')).reverse
  refine ⟨closing, ?_⟩
  rw [← List.reverse_inj, back, trimBrackets, List.reverse_append, List.reverse_replicate,
    List.reverse_reverse]

/-- Every text is what is left of it, with the brackets that were dropped. -/
theorem exists_eq_enclose (text : List Char) :
    ∃ opening closing, text = enclose opening (trimBrackets text) closing := by
  obtain ⟨opening, front⟩ := exists_eq_replicate_append '[' text
  obtain ⟨closing, back⟩ := exists_dropWhile_eq text
  refine ⟨opening, closing, ?_⟩
  rw [enclose, List.append_assoc, ← back, ← front]

/-- What is left of a text is a host, if there is anything left. -/
theorem bare_trimBrackets (nonempty : trimBrackets text ≠ []) : Bare (trimBrackets text) where
  nonempty := nonempty
  front := by
    -- the brackets behind are dropped last, and are not the front of a text that is left
    obtain ⟨closing, back⟩ := exists_dropWhile_eq text
    have front := head?_dropWhile_ne '[' text
    rwa [back, List.head?_append_of_ne_nil _ nonempty] at front
  back := by
    rw [trimBrackets, List.getLast?_reverse]
    exact head?_dropWhile_ne ']' _

end

/-! ## The last colon -/

section

variable {text before after before' after' : List Char}

theorem splitAtLastColon_eq_none_iff : splitAtLastColon text = none ↔ ':' ∉ text := by
  induction text with
  | nil => simp [splitAtLastColon]
  | cons c text ih =>
    rw [splitAtLastColon, List.mem_cons, not_or, ← ih]
    cases splitAtLastColon text with
    | none => simp [eq_comm]
    | some split => simp

private theorem splitAtLastColon_append (nowhere : ':' ∉ after) :
    splitAtLastColon (before ++ ':' :: after) = some (before, after) := by
  induction before with
  | nil => simp [splitAtLastColon, splitAtLastColon_eq_none_iff.mpr nowhere]
  | cons c before ih => rw [List.cons_append, splitAtLastColon, ih]

/-- A text is split at a colon with no colon behind it. -/
theorem splitAtLastColon_eq_some_iff :
    splitAtLastColon text = some (before, after) ↔ text = before ++ ':' :: after ∧ ':' ∉ after := by
  refine ⟨fun split => ?_, fun ⟨text_eq, nowhere⟩ => text_eq ▸ splitAtLastColon_append nowhere⟩
  induction text generalizing before with
  | nil => simp [splitAtLastColon] at split
  | cons c text ih =>
    rw [splitAtLastColon] at split
    cases rest : splitAtLastColon text with
    | none =>
      have nowhere := splitAtLastColon_eq_none_iff.mp rest
      by_cases colon : c = ':'
      · obtain ⟨rfl, rfl⟩ : [] = before ∧ text = after := by simpa [rest, colon] using split
        exact ⟨congrArg (· :: text) colon, nowhere⟩
      · simp [rest, colon] at split
    | some parts =>
      obtain ⟨rfl, rfl⟩ : c :: parts.1 = before ∧ parts.2 = after := by simpa [rest] using split
      obtain ⟨text_eq, nowhere⟩ := ih rest
      exact ⟨congrArg (c :: ·) text_eq, nowhere⟩

theorem exists_splitAtLastColon (colon : ':' ∈ text) :
    ∃ before after, splitAtLastColon text = some (before, after) := by
  cases split : splitAtLastColon text with
  | none => exact absurd colon (splitAtLastColon_eq_none_iff.mp split)
  | some parts => exact ⟨parts.1, parts.2, rfl⟩

/-- Where the last colon stands can be told from the whole. -/
theorem append_colon_inj (nowhere : ':' ∉ after) (nowhere' : ':' ∉ after')
    (same : before ++ ':' :: after = before' ++ ':' :: after') :
    before = before' ∧ after = after' := by
  have split : splitAtLastColon (before ++ ':' :: after) = some (before, after) :=
    splitAtLastColon_append nowhere
  rw [same, splitAtLastColon_append nowhere'] at split
  simpa [eq_comm] using split

end

/-! ## The port -/

/-- A text is a number: digits, at least one, with or without a plus sign before them. -/
def Numeral (text : List Char) (value : Nat) : Prop :=
  ∃ digits, (text = digits ∨ text = '+' :: digits) ∧ digits ≠ [] ∧
    (∀ c ∈ digits, c.isDigit = true) ∧
    Nat.ofDigits 10 (digits.map fun c => c.toNat - '0'.toNat).reverse = value

section

variable {text : List Char} {value value' : Nat} {port : UInt16}

/-- A text without the plus sign in front. -/
def unsigned (text : List Char) : List Char :=
  match text with
  | '+' :: digits => digits
  | _ => text

/-- A text is a number if it is read as one without its plus sign. -/
theorem numeral_iff : Numeral text value ↔ Text.parseDecimal (unsigned text) = some value := by
  rw [Text.parseDecimal_eq_some_iff, Text.decimalValue_eq_ofDigits]
  unfold unsigned
  split
  case h_1 digits' =>
    constructor
    · rintro ⟨digits, rfl | same, nonempty, digit, worth⟩
      · exact absurd (digit '+' List.mem_cons_self) (by decide)
      · obtain rfl := List.tail_eq_of_cons_eq same
        exact ⟨nonempty, digit, worth⟩
    · rintro ⟨nonempty, digit, worth⟩
      exact ⟨digits', .inr rfl, nonempty, digit, worth⟩
  case h_2 other =>
    constructor
    · rintro ⟨digits, rfl | same, nonempty, digit, worth⟩
      · exact ⟨nonempty, digit, worth⟩
      · exact absurd same (other digits)
    · rintro ⟨nonempty, digit, worth⟩
      exact ⟨text, .inl rfl, nonempty, digit, worth⟩

/-- A text is no more than one number. -/
theorem Numeral.unique (numeral : Numeral text value) (numeral' : Numeral text value') :
    value = value' :=
  Option.some.inj ((numeral_iff.mp numeral).symm.trans (numeral_iff.mp numeral'))

theorem Numeral.colon_not_mem (numeral : Numeral text value) : ':' ∉ text := by
  obtain ⟨digits, rfl | rfl, -, digit, -⟩ := numeral <;> intro mem
  · exact absurd (digit ':' mem) (by decide)
  · rcases List.mem_cons.mp mem with plus | mem
    · exact absurd plus (by decide)
    · exact absurd (digit ':' mem) (by decide)

/-- The digits of a number are this number. -/
theorem numeral_decimal (value : Nat) : Numeral (Text.decimal value) value := by
  have digit (c : Char) (mem : c ∈ Text.decimal value) : c.isDigit = true :=
    Text.isDigit_of_mem_decimal value mem
  exact ⟨_, .inl rfl, Text.decimal_ne_nil value, digit,
    (Text.decimalValue_eq_ofDigits _).symm.trans (Text.decimalValue_decimal value)⟩

/-- A text is read as a port if it is the number of this port. -/
theorem parsePort_eq_some_iff : parsePort text = some port ↔ Numeral text port.toNat := by
  have reads : parsePort text = (Text.parseDecimal (unsigned text)).bind fun n =>
      if n < 65536 then some (UInt16.ofNat n) else none := by
    unfold parsePort unsigned
    dsimp only
    generalize Text.parseDecimal _ = read
    cases read <;> rfl
  rw [reads, numeral_iff, Option.bind_eq_some_iff]
  constructor
  · rintro ⟨n, read, fits⟩
    obtain ⟨lt, rfl⟩ : n < 65536 ∧ UInt16.ofNat n = port := by simpa using fits
    rwa [UInt16.toNat_ofNat_of_lt' lt]
  · intro read
    refine ⟨port.toNat, read, ?_⟩
    rw [if_pos port.toNat_lt, UInt16.ofNat_toNat]

end

/-! ## Spellings -/

/-- A host and a port as a text has them, with the brackets around the host and with the number as
it is written, be it with a plus sign or with leading zeros. -/
@[ext] structure Spelling where
  opening : Nat
  host : List Char
  closing : Nat
  number : List Char
  port : UInt16
  bare : Bare host
  numeral : Numeral number port.toNat

/-- A text with nothing but brackets before its last colon: opening ones followed by closing ones,
possibly none. -/
def Hostless (text : List Char) : Prop :=
  ∃ opening closing after, ':' ∉ after ∧
    text = List.replicate opening '[' ++ List.replicate closing ']' ++ ':' :: after

namespace Spelling

/-- The text that is spelled. -/
def chars (spelling : Spelling) : List Char :=
  List.replicate spelling.opening '[' ++ spelling.host ++ List.replicate spelling.closing ']' ++
    ':' :: spelling.number

/-- The host and the port. -/
def peer (spelling : Spelling) : HostAndPort := ⟨String.ofList spelling.host, spelling.port⟩

theorem splitAtLastColon_chars (spelling : Spelling) :
    splitAtLastColon spelling.chars =
      some (enclose spelling.opening spelling.host spelling.closing, spelling.number) :=
  splitAtLastColon_append spelling.numeral.colon_not_mem

/-- A text is taken apart in one manner. -/
theorem chars_injective : Function.Injective chars := by
  intro spelling other same
  obtain ⟨before, number⟩ := append_colon_inj spelling.numeral.colon_not_mem
    other.numeral.colon_not_mem same
  obtain ⟨opening, host, closing⟩ := enclose_inj spelling.bare other.bare before
  have port : spelling.port = other.port :=
    UInt16.toNat_inj.mp ((number ▸ spelling.numeral).unique other.numeral)
  exact Spelling.ext opening host closing number port

end Spelling

/-! ## What comes of a text -/

section

variable {text : String} {before after : List Char}

theorem parse_of_noColon (nowhere : ':' ∉ text.toList) : parse text = .error (.noColon text) := by
  rw [parse, splitAtLastColon_eq_none_iff.mpr nowhere]

private theorem parse_of_split (split : splitAtLastColon text.toList = some (before, after)) :
    parse text = if trimBrackets before = [] then .error (.noHost text)
      else match parsePort after with
        | some port => .ok ⟨String.ofList (trimBrackets before), port⟩
        | none => .error (.badPort (String.ofList after)) := by
  cases port : parsePort after <;> simp [parse, split, port]

theorem parse_of_hostless (hostless : Hostless text.toList) :
    parse text = .error (.noHost text) := by
  obtain ⟨opening, closing, after, nowhere, text_eq⟩ := hostless
  have split := splitAtLastColon_eq_some_iff.mpr ⟨text_eq, nowhere⟩
  have nothing : trimBrackets (enclose opening [] closing) = [] := trimBrackets_enclose_nil
  rw [enclose, List.append_nil] at nothing
  rw [parse_of_split split, if_pos nothing]

theorem parse_of_spelling (spelling : Spelling) (text_eq : spelling.chars = text.toList) :
    parse text = .ok spelling.peer := by
  have split := text_eq ▸ spelling.splitAtLastColon_chars
  rw [parse_of_split split, trimBrackets_enclose spelling.bare, if_neg spelling.bare.nonempty,
    parsePort_eq_some_iff.mpr spelling.numeral]
  rfl

/-- What comes of a text that has no colon, or no host, or is spelled as it should be, or has
something else than a port behind its last colon. -/
inductive Reading (text : String) : Except Fault HostAndPort → Prop
  | noColon (nowhere : ':' ∉ text.toList) : Reading text (.error (.noColon text))
  | hostless (hostless : Hostless text.toList) : Reading text (.error (.noHost text))
  | spelled (spelling : Spelling) (text_eq : spelling.chars = text.toList) :
      Reading text (.ok spelling.peer)
  | badPort {before after : List Char} (text_eq : text.toList = before ++ ':' :: after)
      (nowhere : ':' ∉ after) : Reading text (.error (.badPort (String.ofList after)))

theorem reading_parse (text : String) : Reading text (parse text) := by
  by_cases colon : ':' ∈ text.toList
  case neg => exact parse_of_noColon colon ▸ .noColon colon
  case pos =>
    obtain ⟨before, after, split⟩ := exists_splitAtLastColon colon
    obtain ⟨text_eq, nowhere⟩ := splitAtLastColon_eq_some_iff.mp split
    obtain ⟨opening, closing, before_eq⟩ := exists_eq_enclose before
    -- what is left of the text before the colon decides first, then the text behind it
    by_cases nothing : trimBrackets before = []
    · rw [nothing, enclose, List.append_nil] at before_eq
      have hostless : Hostless text.toList :=
        ⟨opening, closing, after, nowhere, before_eq ▸ text_eq⟩
      exact parse_of_hostless hostless ▸ .hostless hostless
    · cases port : parsePort after with
      | some port' =>
        let spelling : Spelling := ⟨opening, trimBrackets before, closing, after, port',
          bare_trimBrackets nothing, parsePort_eq_some_iff.mp port⟩
        have spelled : spelling.chars = text.toList := by
          change enclose opening (trimBrackets before) closing ++ ':' :: after = _
          rw [← before_eq, text_eq]
        exact parse_of_spelling spelling spelled ▸ .spelled spelling spelled
      | none =>
        have bad : parse text = .error (.badPort (String.ofList after)) := by
          rw [parse_of_split split, if_neg nothing, port]
        exact bad ▸ .badPort text_eq nowhere

/-- A host and a port are read exactly from their spellings. -/
theorem parse_eq_ok_iff {peer : HostAndPort} :
    parse text = .ok peer ↔
      ∃ spelling : Spelling, spelling.chars = text.toList ∧ spelling.peer = peer := by
  constructor
  · intro read
    have reading := read ▸ reading_parse text
    cases reading with
    | spelled spelling text_eq => exact ⟨spelling, text_eq, rfl⟩
  · rintro ⟨spelling, text_eq, rfl⟩
    exact parse_of_spelling spelling text_eq

theorem parse_eq_noColon_iff : parse text = .error (.noColon text) ↔ ':' ∉ text.toList := by
  refine ⟨fun read => ?_, parse_of_noColon⟩
  have reading := read ▸ reading_parse text
  cases reading with
  | noColon nowhere => exact nowhere

theorem parse_eq_noHost_iff : parse text = .error (.noHost text) ↔ Hostless text.toList := by
  refine ⟨fun read => ?_, parse_of_hostless⟩
  have reading := read ▸ reading_parse text
  cases reading with
  | hostless hostless => exact hostless

/-- The port is to blame in all remaining cases, and then it is what stands behind the last
colon. -/
theorem parse_eq_badPort_iff {port : String} :
    parse text = .error (.badPort port) ↔
      (∃ before, text.toList = before ++ ':' :: port.toList) ∧ ':' ∉ port.toList ∧
        ¬ Hostless text.toList ∧ ¬ ∃ spelling : Spelling, spelling.chars = text.toList := by
  constructor
  · intro bad
    have reading := bad ▸ reading_parse text
    generalize result_eq : Except.error (Fault.badPort port) = result at reading
    cases reading with
    | @badPort before after text_eq nowhere =>
      obtain rfl : port = String.ofList after := by simpa using result_eq
      refine ⟨⟨before, by simpa using text_eq⟩, by simpa using nowhere, fun hostless => ?_,
        fun ⟨spelling, spelled⟩ => ?_⟩
      · simp [parse_of_hostless hostless] at bad
      · simp [parse_of_spelling spelling spelled] at bad
    | _ => cases result_eq
  · rintro ⟨⟨before, text_eq⟩, nowhere, host, unspelled⟩
    have reading := reading_parse text
    generalize parse text = result at reading
    cases reading with
    | noColon none => exact absurd (by simp [text_eq]) none
    | hostless hostless => exact absurd hostless host
    | spelled spelling spelled => exact absurd ⟨spelling, spelled⟩ unspelled
    | badPort text_eq' nowhere' =>
      obtain ⟨-, rfl⟩ := append_colon_inj nowhere nowhere' (text_eq.symm.trans text_eq')
      rw [String.ofList_toList]

end

/-! ## What whoever has a text read is told -/

private theorem eq_of_quoted_eq {front text text' : String}
    (same : front ++ text ++ "'" = front ++ text' ++ "'") : text = text' := by
  have letters := congrArg String.toList same
  simp only [String.toList_append, List.append_assoc] at letters
  exact String.toList_inj.mp (List.append_cancel_right (List.append_cancel_left letters))

private theorem quoted_ne_quoted {front front' text text' : String}
    (long : 2 ≤ front.toList.length) (long' : 2 ≤ front'.toList.length)
    (differ : front.toList.take 2 ≠ front'.toList.take 2) :
    front ++ text ++ "'" ≠ front' ++ text' ++ "'" := by
  intro same
  have letters := congrArg (fun words : String => words.toList.take 2) same
  simp only [String.toList_append, List.append_assoc] at letters
  rw [List.take_append_of_le_length long, List.take_append_of_le_length long'] at letters
  exact differ letters

/-- What is wrong with a text can be told from the words. -/
theorem Fault.message_injective : Function.Injective Fault.message := by
  intro fault other same
  cases fault <;> cases other <;> dsimp only [message] at same
  case noColon.noColon => exact congrArg noColon (eq_of_quoted_eq same)
  case noHost.noHost => exact congrArg noHost (eq_of_quoted_eq same)
  case badPort.badPort => exact congrArg badPort (eq_of_quoted_eq same)
  -- the first two letters tell the sentences apart
  all_goals exact absurd same (quoted_ne_quoted (by decide) (by decide) (by decide))

section

variable {text : String}

private theorem mapError_eq_ok_iff {peer : HostAndPort} :
    (parse text).mapError Fault.message = .ok peer ↔ parse text = .ok peer := by
  cases parse text <;> simp [Except.mapError]

private theorem mapError_eq_error_iff (fault : Fault) :
    (parse text).mapError Fault.message = .error fault.message ↔ parse text = .error fault := by
  cases parse text <;> simp [Except.mapError, Fault.message_injective.eq_iff]

/-- Which texts name a host and a port. A text is read as a host and a port exactly if it is
spelled with them, which it is in no more than one manner. Where it is not, it is said to have no
colon exactly if it has none, to have no host exactly if there are only opening brackets followed by
closing ones, if any, before its last colon, and to have something else than a port behind this
colon in all remaining cases. -/
theorem parse_follows_grammar (text : String) :
    let told := (parse text).mapError Fault.message
    (∀ peer, told = .ok peer ↔
      ∃ spelling : Spelling, spelling.chars = text.toList ∧ spelling.peer = peer) ∧
    (∀ spelling other : Spelling,
      spelling.chars = text.toList → other.chars = text.toList → spelling = other) ∧
    (told = .error ("expected 'host:port', got '" ++ text ++ "'") ↔ ':' ∉ text.toList) ∧
    (told = .error ("empty host in '" ++ text ++ "'") ↔ Hostless text.toList) ∧
    ((∃ port, told = .error ("invalid port: '" ++ port ++ "'")) ↔
      ':' ∈ text.toList ∧ ¬ Hostless text.toList ∧
        ¬ ∃ spelling : Spelling, spelling.chars = text.toList) ∧
    ∀ port, told = .error ("invalid port: '" ++ port ++ "'") →
      (∃ before, text.toList = before ++ ':' :: port.toList) ∧ ':' ∉ port.toList := by
  intro told
  have badPort (port : String) : told = .error ("invalid port: '" ++ port ++ "'") ↔
      parse text = .error (.badPort port) := mapError_eq_error_iff (.badPort port)
  refine ⟨fun peer => mapError_eq_ok_iff.trans parse_eq_ok_iff,
    fun spelling other spelled spelled' => Spelling.chars_injective (spelled.trans spelled'.symm),
    (mapError_eq_error_iff (.noColon text)).trans parse_eq_noColon_iff,
    (mapError_eq_error_iff (.noHost text)).trans parse_eq_noHost_iff, ⟨?_, ?_⟩, fun port bad => ?_⟩
  · rintro ⟨port, bad⟩
    obtain ⟨⟨before, text_eq⟩, -, host, unspelled⟩ :=
      parse_eq_badPort_iff.mp ((badPort port).mp bad)
    exact ⟨by simp [text_eq], host, unspelled⟩
  · rintro ⟨colon, host, unspelled⟩
    obtain ⟨before, after, split⟩ := exists_splitAtLastColon colon
    obtain ⟨text_eq, nowhere⟩ := splitAtLastColon_eq_some_iff.mp split
    refine ⟨String.ofList after, (badPort _).mpr (parse_eq_badPort_iff.mpr ⟨⟨before, ?_⟩, ?_, host,
      unspelled⟩)⟩
    · rwa [String.toList_ofList]
    · rwa [String.toList_ofList]
  · obtain ⟨before, nowhere, -⟩ := parse_eq_badPort_iff.mp ((badPort port).mp bad)
    exact ⟨before, nowhere⟩

/-- Brackets need not be in pairs, and a number may have a sign and leading zeros. -/
example : parse "[[::1]:+08421" = .ok ⟨"::1", 8421⟩ := by decide

end

end Tenure.HostAndPort
