import Mathlib.Data.Nat.Init
import Tenure.Proofs.Term.Release

/-!
# What a closed register shows

A publication looks at the flag, puts its term into service and looks at the flag again. A closing
can come to its end between the first look and the moment the term is put into service; the
publication then finds the flag set and takes out again whatever is served, but until it has done
so a reader of the closed register finds a term. Only publications that were admitted before the
register was closed can bring this about, and when the last of them is through, a closed register
shows nothing any more.

## Main definitions

* `Operation.isAdmitted` — a publication that has found the register open and is not through
* `Traffic.AdmittedAt` — the moment at which one finds the register open

## Main results

* `Traffic.closed_register_can_show_a_term` — a reader of a closed register may find a term
* `Traffic.shows_term_only_while_overtaken` — and who has left it there
-/

namespace Tenure

/-- Whether a publication has found the register open, and has yet to look at the flag again or to
take out what is served. -/
def Operation.isAdmitted : Operation → Bool
  | number _ | put _ | recheck _ | retract => true
  | release _ (.recheck _) | releasing _ (.recheck _) => true
  | _ => false

/-- A publication is admitted only by finding the register open. -/
theorem Operation.Advance.isAdmitted {operation next : Operation} {ledger ledger' : Ledger}
    (h : Advance operation ledger next ledger') (hn : next.isAdmitted = true) :
    operation.isAdmitted = true ∨
      (∃ holding, operation = publish holding) ∧ ledger.register.closed = false := by
  cases h with
  | @admitted holding ledger isOpen => exact .inr ⟨⟨holding, rfl⟩, isOpen⟩
  | retracted | cleared =>
    -- what was taken out is only to be released
    revert hn
    cases ledger.register.current <;> simp [releaseThen, Operation.isAdmitted]
  | @released holding sequel ledger => cases sequel <;> exact .inl hn
  | @returned holding sequel ledger how =>
    cases sequel with
    | recheck term => exact .inl rfl
    | finish outcome => simp [Sequel.resume, Operation.isAdmitted] at hn
  | numbered | served | replaced | overtaken => exact .inl rfl
  | _ => simp [Operation.isAdmitted] at hn

/-- Whoever looks after a closed register is a publication, or the closing that closed it. -/
theorem Operation.isAdmitted_of_tidies {operation : Operation} (h : operation.tidies = true)
    (hne : operation ≠ clear) : operation.isAdmitted = true := by
  cases operation with
  | release holding sequel | releasing holding sequel =>
    cases sequel <;> simp_all [tidies, isAdmitted]
  | _ => simp_all [tidies, isAdmitted]

namespace Traffic

variable {traffic : Traffic} {move : Move} {schedule : Nat → Move} {i j m n : Nat}
  {run : OperationRun}

/-- An operation keeps its place, and what it comes to is settled by its own moves. -/
theorem step_run (move : Move) (here : traffic.runs[j]? = some run) :
    (traffic.step move).runs[j]? = some run ∨
      ∃ how, move = .proceed j how ∧ (traffic.step move).runs[j]? =
        some { run with now := (run.now.proceed traffic.toLedger how).1 } := by
  obtain ⟨hj, -⟩ := List.getElem?_eq_some_iff.mp here
  have hjoin (operation : Operation) (origin : Operation) :
      (traffic.runs ++ [⟨origin, operation⟩])[j]? = some run := by
    rw [List.getElem?_append_left hj]
    exact here
  cases move with
  | publish token => exact .inl (hjoin _ _)
  | invalidate term => exact .inl (hjoin _ _)
  | close => exact .inl (hjoin _ _)
  | proceed i how =>
    by_cases hij : i = j
    · subst hij
      right
      refine ⟨how, rfl, ?_⟩
      simp only [step, here]
      rw [List.getElem?_set_self hj]
    · left
      simp only [step]
      split
      · exact here
      · exact (List.getElem?_set_ne hij).trans here

/-- An operation that was not there before has only been begun. -/
theorem step_begun (move : Move) (absent : traffic.runs[j]? = none)
    (here : (traffic.step move).runs[j]? = some run) : run.now.isAdmitted = false := by
  have hlength : traffic.runs.length ≤ j := List.getElem?_eq_none_iff.mp absent
  have hjoin {operation : Operation}
      (h : (traffic.runs ++ [⟨operation, operation⟩])[j]? = some run) :
      run.now = operation := by
    rw [List.getElem?_append_right hlength] at h
    obtain rfl := List.mem_singleton.mp (List.mem_of_getElem? h)
    rfl
  cases move with
  | publish token => rw [hjoin here]; rfl
  | invalidate term => rw [hjoin here]; rfl
  | close => rw [hjoin here]; rfl
  | proceed i how =>
    -- nobody joins by a move of somebody else
    exfalso
    simp only [step] at here
    split at here
    · simp [absent] at here
    · rw [List.getElem?_eq_none (by simpa using hlength)] at here
      simp at here

/-- The publication at a place finds the register open. -/
def AdmittedAt (schedule : Nat → Move) (j k : Nat) : Prop :=
  ∃ run holding how, (after schedule k).runs[j]? = some run ∧
    run.now = .publish holding ∧ schedule k = .proceed j how ∧
    (after schedule k).register.closed = false

/-- An admitted publication was so before, or has found the register open just now. -/
theorem isAdmitted_before (here : (after schedule (n + 1)).runs[j]? = some run)
    (ha : run.now.isAdmitted = true) :
    (∃ before, (after schedule n).runs[j]? = some before ∧ before.now.isAdmitted = true) ∨
      AdmittedAt schedule j n := by
  cases hbefore : (after schedule n).runs[j]? with
  | none =>
    rw [step_begun (schedule n) hbefore here] at ha
    simp at ha
  | some before =>
    rcases step_run (schedule n) hbefore with hsame | ⟨how, hmove, hnext⟩
    · obtain rfl : before = run := Option.some.inj (hsame.symm.trans here)
      exact .inl ⟨before, rfl, ha⟩
    · obtain rfl := Option.some.inj (hnext.symm.trans here)
      rcases (Operation.proceed_advance _ how before.now).isAdmitted ha with
        hwas | ⟨⟨holding, hpublish⟩, isOpen⟩
      · exact .inl ⟨before, rfl, hwas⟩
      · exact .inr ⟨before, holding, how, hbefore, hpublish, hmove, isOpen⟩

/-- Every admitted publication has found the register open at some moment. -/
theorem exists_admittedAt (here : (after schedule n).runs[j]? = some run)
    (ha : run.now.isAdmitted = true) : ∃ k, k < n ∧ AdmittedAt schedule j k := by
  induction n generalizing run with
  | zero => simp [after] at here
  | succ n ih =>
    rcases isAdmitted_before here ha with ⟨before, hbefore, hwas⟩ | hadmitted
    · obtain ⟨k, hk, hadmitted⟩ := ih hbefore hwas
      exact ⟨k, Nat.lt_succ_of_lt hk, hadmitted⟩
    · exact ⟨n, Nat.lt_succ_self n, hadmitted⟩

/-- Nothing opens a register again. -/
theorem closed_after (hmn : m ≤ n) (hc : (after schedule m).register.closed = true) :
    (after schedule n).register.closed = true := by
  induction n, hmn using Nat.le_induction with
  | base => exact hc
  | succ n _ ih => exact (step_shift _ (schedule n)).shared.closed ih

/-- A closed register admits no publication. -/
theorem isAdmitted_of_closed (hc : (after schedule m).register.closed = true) (hmn : m ≤ n)
    (here : (after schedule n).runs[j]? = some run) (ha : run.now.isAdmitted = true) :
    ∃ before, (after schedule m).runs[j]? = some before ∧ before.now.isAdmitted = true := by
  induction n, hmn using Nat.le_induction generalizing run with
  | base => exact ⟨run, here, ha⟩
  | succ n hmn ih =>
    rcases isAdmitted_before here ha with ⟨before, hbefore, hwas⟩ | ⟨_, _, _, -, -, -, isOpen⟩
    · exact ih hbefore hwas
    · rw [closed_after hmn hc] at isOpen
      simp at isOpen

/-- What an operation has come to stays. -/
theorem Returned.after {origin : Operation} {outcome : Operation.Outcome}
    (h : (after schedule m).Returned i origin outcome) (hmn : m ≤ n) :
    (after schedule n).Returned i origin outcome := by
  induction n, hmn using Nat.le_induction with
  | base => exact h
  | succ n _ ih =>
    rcases step_run (schedule n) ih with hsame | ⟨how, -, hnext⟩
    · exact hsame
    · exact hnext

/-- A register that somebody has closed is closed. -/
theorem closed_of_returned (h : (after schedule n).Returned i .shut (.closed true)) :
    (after schedule n).register.closed = true := by
  have honce := (sound_after schedule n).closedOnce
  have hpos := Tally.countP_pos_of_getElem?
    (p := fun run : OperationRun => run.now.settled == some (.closed true)) h rfl
  unfold ClosedOnce at honce
  cases hc : (after schedule n).register.closed with
  | true => rfl
  | false =>
    rw [hc] at honce
    simp only [Bool.not_false, Bool.toNat_true] at honce
    omega

/-- If a register serves a term that somebody has closed before, an admitted publication has yet to
look after it. -/
theorem exists_isAdmitted (h : (after schedule n).Returned i .shut (.closed true))
    (hs : (after schedule n).register.current.isSome = true) :
    ∃ (j : Nat) (run : OperationRun), (after schedule n).runs[j]? = some run ∧
      run.now.isAdmitted = true := by
  have hsound := sound_after schedule n
  have hpos := hsound.shared.tidied (closed_of_returned h) hs
  obtain ⟨j, operation, hj, htidies⟩ := Tally.exists_getElem?_of_countP_pos hpos
  obtain ⟨run, here, rfl⟩ := exists_run hj
  refine ⟨j, run, here, Operation.isAdmitted_of_tidies htidies fun hclear => ?_⟩
  -- a closing that has yet to clear the register would be a second one that has closed it
  have honce : (after schedule n).runs.countP
      (fun run : OperationRun => run.now.settled == some (.closed true)) ≤ 1 := by
    have := hsound.closedOnce
    unfold ClosedOnce at this
    omega
  obtain rfl := Tally.eq_of_countP_le_one honce here (by rw [hclear]; rfl) h rfl
  obtain rfl := Option.some.inj (here.symm.trans h)
  simp at hclear

/-- A publication is admitted, and before it puts its term into service the register is closed. -/
def overtaken : List Move :=
  [.publish ⟨0, 1⟩, .proceed 0 .clean, .proceed 0 .clean, .close, .proceed 1 .clean,
    .proceed 1 .clean, .proceed 0 .clean, .proceed 0 .clean, .proceed 0 .clean]

/-- A closing that has closed the register may have come to its end, and still a reader of the
register finds a term. -/
theorem closed_register_can_show_a_term :
    ¬ ∀ (schedule : Nat → Move) (i n : Nat),
      (after schedule n).Returned i .shut (.closed true) →
      ∀ m, n ≤ m → (after schedule m).register.current = none := by
  intro h
  -- the closing is over after six moves, and the seventh puts the term into service
  have hshown := h (overtaken.getD · .close) 1 6 rfl 7 (by decide)
  have hterm : (after (overtaken.getD · .close) 7).register.current = some ⟨⟨⟨0, 1⟩, 1⟩, 1⟩ := rfl
  rw [hterm] at hshown
  simp at hshown

/-- After a closing that has closed the register has come to its end, a reader finds a term only
while a publication that had found the register open before goes on, and has yet to look at the
flag again or to take out what is served. Once no such publication goes on, no reader ever finds a
term again. -/
theorem shows_term_only_while_overtaken (schedule : Nat → Move) {i n : Nat}
    (closed : (after schedule n).Returned i .shut (.closed true)) :
    (∀ m, n ≤ m → (after schedule m).register.current.isSome = true →
      ∃ (j k : Nat) (run : OperationRun), k < n ∧ AdmittedAt schedule j k ∧
        (after schedule m).runs[j]? = some run ∧ run.now.isAdmitted = true) ∧
    ∀ m, n ≤ m → (∀ run ∈ (after schedule m).runs, run.now.isAdmitted = false) →
      ∀ l, m ≤ l → (after schedule l).register.current = none := by
  have hclosed := closed_of_returned closed
  refine ⟨fun m hm hs => ?_, fun m hm hnobody l hl => ?_⟩
  · obtain ⟨j, run, here, ha⟩ := exists_isAdmitted (closed.after hm) hs
    -- it was admitted before the register was closed
    obtain ⟨before, hbefore, hwas⟩ := isAdmitted_of_closed hclosed hm here ha
    obtain ⟨k, hk, hadmitted⟩ := exists_admittedAt hbefore hwas
    exact ⟨j, k, run, hk, hadmitted, here, ha⟩
  · by_contra hs
    have hsome := Option.isSome_iff_ne_none.mpr hs
    obtain ⟨j, run, here, ha⟩ := exists_isAdmitted (closed.after (Nat.le_trans hm hl)) hsome
    -- it would go on already, for a closed register admits nobody
    obtain ⟨before, hbefore, hwas⟩ := isAdmitted_of_closed (closed_after hm hclosed) hl here ha
    rw [hnobody before (List.mem_of_getElem? hbefore)] at hwas
    simp at hwas

/-- The publication that was overtaken goes on until the ninth move, and after that the closed
register never shows a term. -/
theorem overtaken_is_taken_out :
    (∃ (j k : Nat) (run : OperationRun), k < 6 ∧ AdmittedAt (overtaken.getD · .close) j k ∧
      (after (overtaken.getD · .close) 7).runs[j]? = some run ∧
      run.now.isAdmitted = true) ∧
    ∀ l, 9 ≤ l → (after (overtaken.getD · .close) l).register.current = none := by
  obtain ⟨hwhile, hafter⟩ :=
    shows_term_only_while_overtaken (overtaken.getD · .close) (i := 1) (n := 6) rfl
  have hthrough : (after (overtaken.getD · .close) 9).runs.all
      (fun run => !run.now.isAdmitted) = true := rfl
  refine ⟨hwhile 7 (by decide) rfl, fun l hl => hafter 9 (by decide) (fun run he => ?_) l hl⟩
  simpa using List.all_eq_true.mp hthrough run he

end Traffic

end Tenure
