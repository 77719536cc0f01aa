import Mathlib.Data.List.Nodup
import Tenure.Proofs.Term.Visibility
import Tenure.Term.Course

/-!
# Terms do not come back

A term that was served and is served no more is over for good, whoever publishes, ends and closes
meanwhile and in whatever order their steps come. Nobody finds it served again, and whoever is asked
to end it comes to nothing and touches nothing. Its token may well be published again, with a
delegate that is worth as much as the first one: that makes another term, of another generation, and
what is asked about the first term is not answered for the second.

## Main definitions

* `Traffic.Spent` — an ending that has come to nothing, or is about to
* `Traffic.renewal` — a term is ended, and its token is published again

## Main results

* `Operation.proceed_invalidate_of_missed`, `Operation.course_invalidate_of_missed` — the ending of
  a term that is not served
* `Traffic.eq_of_generation` — a term is told by its generation
* `Traffic.term_never_comes_back` — what can be found of a term that is over, and what its ending
  does
-/

namespace Tenure

namespace Operation

variable {term : Term} {ledger : Ledger}

/-- Who ends a term that is not served comes to nothing, and touches nothing. -/
theorem proceed_invalidate_of_missed (missed : ledger.register.current ≠ some term) (how : Return) :
    (invalidate term).proceed ledger how = (done (.ended false), ledger) := by
  have advance := proceed_advance ledger how (invalidate term)
  generalize (invalidate term).proceed ledger how = became at advance ⊢
  obtain ⟨next, left⟩ := became
  cases advance with
  | ended isServed => exact absurd isServed missed
  | missed => rfl

/-- The ending of a term that is not served, from its begin to its end. -/
theorem course_invalidate_of_missed {σ : Type} (missed : ledger.register.current ≠ some term)
    (around : Surroundings σ) (state : σ) :
    (invalidate term).course around ledger state = (some (.ended false), ledger, state) := by
  rw [course, run]
  simp only [standing, proceed_invalidate_of_missed missed]
  rw [run]
  simp only [standing]

end Operation

namespace Traffic

variable {traffic : Traffic} {schedule : Nat → Move} {term other : Term} {j k l m n : Nat}

/-- What happens between two moments of a schedule, as shifts of the shared register. -/
theorem shared_shifts (schedule : Nat → Move) (hmn : m ≤ n) :
    SharedRegister.Shifts (after schedule m).shared (after schedule n).shared := by
  induction n, hmn using Nat.le_induction with
  | base => exact .refl
  | succ n _ ih => exact ih.trans (step_shift _ (schedule n)).shared

/-- A term that was served and is served no more is over from then on. -/
theorem past_after (served : (after schedule m).register.current = some term) (hmn : m ≤ n)
    (gone : (after schedule n).register.current ≠ some term) (hnl : n ≤ l) :
    (after schedule l).shared.Past term := by
  have hsound := (sound_after schedule m).shared
  have hpast : (after schedule n).shared.Past term :=
    ((shared_shifts schedule hmn).served_or_past hsound served).resolve_left gone
  exact hpast.shifts (shared_shifts schedule hnl)

/-- A term is told by its generation: no other term that was numbered has the same one. -/
theorem eq_of_generation (hn : traffic.Numbered) (hterm : term ∈ traffic.terms)
    (hother : other ∈ traffic.terms) (heq : term.generation = other.generation) :
    term = other := by
  have hnodup : (traffic.terms.map (·.generation)).Nodup := by
    rw [hn]
    exact List.nodup_range'
  exact List.inj_on_of_nodup_map hnodup hterm hother heq

/-- A term that was numbered stays on record. -/
theorem mem_terms_after (hmn : m ≤ n) (h : term ∈ (after schedule m).terms) :
    term ∈ (after schedule n).terms := by
  induction n, hmn using Nat.le_induction with
  | base => exact h
  | succ n _ ih =>
    have hshift := step_shift (after schedule n) (schedule n)
    change term ∈ ((after schedule n).step (schedule n)).terms
    generalize (after schedule n).step (schedule n) = next at hshift ⊢
    cases hshift with
    | advance here advance =>
      rcases advance.terms with ⟨_, -, hterms, -⟩ | ⟨hterms, -⟩ <;> simp [hterms, ih]
    | _ => exact ih

/-- The operation at a place was asked to end a term, and has come to nothing or is about to. -/
def Spent (traffic : Traffic) (j : Nat) (term : Term) : Prop :=
  traffic.runs[j]? = some ⟨.invalidate term, .invalidate term⟩ ∨
    traffic.Returned j (.invalidate term) (.ended false)

/-- A spent ending proceeds to nothing, and touches nothing. -/
theorem Spent.proceed (h : traffic.Spent j term) (missed : traffic.register.current ≠ some term) :
    ∃ now, traffic.runs[j]? = some ⟨.invalidate term, now⟩ ∧
      ∀ how, now.proceed traffic.toLedger how = (.done (.ended false), traffic.toLedger) := by
  rcases h with asked | returned
  · exact ⟨_, asked, Operation.proceed_invalidate_of_missed missed⟩
  · exact ⟨_, returned, fun how => rfl⟩

/-- A move of a spent ending leaves everything as it was, and the ending is over. -/
theorem Spent.step_proceed (h : traffic.Spent j term)
    (missed : traffic.register.current ≠ some term) (how : Operation.Return) :
    (traffic.step (.proceed j how)).toLedger = traffic.toLedger ∧
      (traffic.step (.proceed j how)).Returned j (.invalidate term) (.ended false) := by
  obtain ⟨now, here, hmoved⟩ := h.proceed missed
  obtain ⟨hj, -⟩ := List.getElem?_eq_some_iff.mp here
  simp only [Traffic.step, here, hmoved, Returned]
  exact ⟨trivial, List.getElem?_set_self hj⟩

/-- An ending that is spent stays so. -/
theorem Spent.step (h : traffic.Spent j term) (missed : traffic.register.current ≠ some term)
    (move : Move) : (traffic.step move).Spent j term := by
  obtain ⟨now, here, hmoved⟩ := h.proceed missed
  rcases step_run move here with hsame | ⟨how, -, hnext⟩
  · rcases h with asked | returned
    · exact .inl (hsame.trans (here.symm.trans asked))
    · exact .inr (hsame.trans (here.symm.trans returned))
  · rw [hmoved] at hnext
    exact .inr hnext

/-- An ending that is spent stays so while the term is over. -/
theorem Spent.after (h : (after schedule l).Spent j term) (hlk : l ≤ k)
    (missed : ∀ i, l ≤ i → (after schedule i).register.current ≠ some term) :
    (after schedule k).Spent j term := by
  induction k, hlk using Nat.le_induction with
  | base => exact h
  | succ k hlk ih => exact ih.step (missed k hlk) (schedule k)

/-- An ending is spent from its begin, unless the term is served by the time it looks. -/
theorem spent_asked (traffic : Traffic) (term : Term) :
    (traffic.step (.invalidate term)).Spent traffic.runs.length term :=
  .inl List.getElem?_concat_length

/-- A term that was served and is served no more never comes back. It is never served again, and who
looks for it is told so; whatever is served instead is a term of another generation, which token and
delegate it may carry. Whoever is asked to end the term from then on, or was asked
before and has yet to look, comes to nothing and leaves the register and its ledger as they are,
wherever its moves come among those of the others; and so it is where nobody else moves. -/
theorem term_never_comes_back (schedule : Nat → Move) {term : Term} {m n : Nat}
    (served : (after schedule m).register.current = some term) (hmn : m ≤ n)
    (gone : (after schedule n).register.current ≠ some term) :
    (∀ l, n ≤ l → (after schedule l).register.current ≠ some term ∧
      (after schedule l).register.serves term = false ∧
      ∀ other, (after schedule l).register.current = some other →
        other.generation ≠ term.generation) ∧
    (∀ l, n ≤ l → schedule l = .invalidate term →
      (after schedule (l + 1)).Spent (after schedule l).runs.length term) ∧
    (∀ l, n ≤ l → ∀ j, (after schedule l).Spent j term → ∀ k, l ≤ k →
      (after schedule k).Spent j term ∧
      ∀ how, schedule k = .proceed j how →
        (after schedule (k + 1)).toLedger = (after schedule k).toLedger ∧
        (after schedule (k + 1)).Returned j (.invalidate term) (.ended false)) ∧
    ∀ l, n ≤ l → ∀ (σ : Type) (around : Surroundings σ) (state : σ),
      (Operation.invalidate term).course around (after schedule l).toLedger state =
        (some (.ended false), (after schedule l).toLedger, state) := by
  -- everything follows from this: the term is over from the moment at which it was gone
  have missed : ∀ l, n ≤ l → (after schedule l).register.current ≠ some term :=
    fun l hl => (past_after served hmn gone hl).2.1
  refine ⟨fun l hl => ⟨missed l hl, ?_, fun other hother heq => ?_⟩, fun l hl asked => ?_,
    fun l hl j spent k hk => ?_, fun l hl σ around state => ?_⟩
  · simpa [Register.serves] using missed l hl
  · -- both were numbered, and no generation is drawn twice
    have hterm : term ∈ (after schedule l).terms :=
      mem_terms_after (Nat.le_trans hmn hl) ((sound_after schedule m).known.1 term served)
    have hsound := sound_after schedule l
    obtain rfl := eq_of_generation hsound.numbered (hsound.known.1 other hother) hterm heq
    exact missed l hl hother
  · change ((after schedule l).step (schedule l)).Spent _ term
    rw [asked]
    exact spent_asked _ term
  · have hspent := spent.after hk fun i hi => missed i (Nat.le_trans hl hi)
    refine ⟨hspent, fun how hmove => ?_⟩
    have hleft := hspent.step_proceed (missed k (Nat.le_trans hl hk)) how
    rw [← hmove] at hleft
    exact hleft
  · exact Operation.course_invalidate_of_missed (missed l hl) around state

/-- A term is published and ended, its token is published again, and somebody is asked once more to
end the first term. -/
def renewal : List Move :=
  [.publish ⟨7, 1⟩, .proceed 0 .clean, .proceed 0 .clean, .proceed 0 .clean, .proceed 0 .clean,
    .invalidate ⟨⟨⟨7, 1⟩, 1⟩, 1⟩, .proceed 1 .clean, .proceed 1 .clean, .proceed 1 .clean,
    .publish ⟨7, 1⟩, .proceed 2 .clean, .proceed 2 .clean, .proceed 2 .clean, .proceed 2 .clean,
    .invalidate ⟨⟨⟨7, 1⟩, 1⟩, 1⟩, .proceed 3 .clean]

/-- The second term of a token is served, and the one who was asked to end the first term comes to
nothing and leaves the second one in service. -/
theorem renewal_is_another_term :
    (after (renewal.getD · .close) 16).register.current = some ⟨⟨⟨7, 1⟩, 2⟩, 2⟩ ∧
    (after (renewal.getD · .close) 16).register.serves ⟨⟨⟨7, 1⟩, 1⟩, 1⟩ = false ∧
    (after (renewal.getD · .close) 16).Returned 3 (.invalidate ⟨⟨⟨7, 1⟩, 1⟩, 1⟩)
      (.ended false) := by
  have hserved : (after (renewal.getD · .close) 4).register.current = some ⟨⟨⟨7, 1⟩, 1⟩, 1⟩ := rfl
  have hgone' : (after (renewal.getD · .close) 7).register.current ≠ some ⟨⟨⟨7, 1⟩, 1⟩, 1⟩ := by
    decide
  obtain ⟨hgone, hasked, hspent, -⟩ :=
    term_never_comes_back (renewal.getD · .close) hserved (by decide) hgone'
  refine ⟨rfl, (hgone 16 (by decide)).2.1, ?_⟩
  exact ((hspent 15 (by decide) 3 (hasked 14 (by decide) rfl) 15 (by decide)).2 .clean rfl).2

end Traffic

end Tenure
