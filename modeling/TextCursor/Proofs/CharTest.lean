import TextCursor.Proofs.Text.Run
import TextCursor.Text.CharClass

namespace TextCursor

variable {σ τ : Type}

namespace CharTest

def stateAfter (test : CharTest σ) (shown : Text) : σ :=
  shown.foldl (fun s ch ↦ (test.step s ch).2) test.start

/-- The verdict on a character that is shown next, behind a text that has been shown already. -/
def verdict (test : CharTest σ) (shown : Text) (ch : Char) : Bool :=
  (test.step (test.stateAfter shown) ch).1

/-- The text begins with a run of which the test accepts each character, when those before it have
been shown, and the character behind the run, if there is one, is the first that it refuses. -/
structure TakesRun (test : CharTest σ) (t run rest : Text) : Prop where
  eq : t = run ++ rest
  accepts : ∀ before ch after, run = before ++ ch :: after → test.verdict before ch = true
  refuses : ∀ ch ∈ rest.head?, test.verdict run ch = false

def resume (test : CharTest σ) (s : σ) : CharTest σ :=
  { test with start := s }

theorem verdict_cons (test : CharTest σ) (first : Char) (shown : Text) (ch : Char) :
    test.verdict (first :: shown) ch =
      (test.resume (test.step test.start first).2).verdict shown ch := rfl

namespace TakesRun

variable {test : CharTest σ} {t run run' rest rest' : Text} {ch : Char}

theorem nil (test : CharTest σ) : test.TakesRun [] [] [] where
  eq := rfl
  accepts _ _ _ hrun := by simp at hrun
  refuses := nofun

theorem refused (h : (test.step test.start ch).1 = false) :
    test.TakesRun (ch :: t) [] (ch :: t) where
  eq := rfl
  accepts _ _ _ hrun := by simp at hrun
  refuses _ hch := Option.some.inj hch ▸ h

theorem cons {s : σ} (hfirst : test.step test.start ch = (true, s))
    (h : (test.resume s).TakesRun t run rest) : test.TakesRun (ch :: t) (ch :: run) rest where
  eq := congrArg (ch :: ·) h.eq
  accepts before first after hrun := by
    cases before with
    | nil =>
      cases hrun
      exact congrArg Prod.fst hfirst
    | cons _ before =>
      cases hrun
      rw [verdict_cons, hfirst]
      exact h.accepts before first after rfl
  refuses first hrest := by
    rw [verdict_cons, hfirst]
    exact h.refuses first hrest

theorem ends {more : Text} (h : test.TakesRun t run rest)
    (h' : test.TakesRun t (run ++ more) rest') : more = [] := by
  cases more with
  | nil => rfl
  | cons ch more =>
    have hrest : run ++ rest = run ++ (ch :: more ++ rest') := by
      rw [← h.eq, h'.eq, List.append_assoc]
    have hrefused := h.refuses ch (by rw [List.append_cancel_left hrest]; rfl)
    rw [h'.accepts run ch more rfl] at hrefused
    cases hrefused

theorem unique (h : test.TakesRun t run rest) (h' : test.TakesRun t run' rest') :
    run' = run ∧ rest' = rest := by
  have hrun : run' = run := by
    rcases List.append_eq_append_iff.1 (h.eq.symm.trans h'.eq) with ⟨more, rfl, -⟩ | ⟨more, rfl, -⟩
    · rw [h.ends h', List.append_nil]
    · rw [h'.ends h, List.append_nil]
  subst hrun
  exact ⟨rfl, List.append_cancel_left (h'.eq.symm.trans h.eq)⟩

theorem of_agree {other : CharTest τ} (h : test.TakesRun t run rest)
    (hagree : ∀ before ch after, run ++ rest.head?.toList = before ++ ch :: after →
      other.verdict before ch = test.verdict before ch) : other.TakesRun t run rest where
  eq := h.eq
  accepts before ch after hrun := by
    rw [hagree before ch (after ++ rest.head?.toList), h.accepts before ch after hrun]
    rw [hrun, List.append_assoc, List.cons_append]
  refuses ch hrest := by
    rw [hagree run ch [], h.refuses ch hrest]
    rw [hrest]
    rfl

end TakesRun

theorem takesRun_resume (test : CharTest σ) (s : σ) (t : Text) :
    (test.resume s).TakesRun t (t.take (test.acceptedFrom s t))
      (t.drop (test.acceptedFrom s t)) := by
  induction t generalizing s with
  | nil => exact .nil _
  | cons ch t ih =>
    rw [acceptedFrom]
    split
    · rename_i s' hstep
      exact .cons hstep (ih s')
    · rename_i s' hstep
      exact .refused (congrArg Prod.fst hstep)

theorem takesRun_ofBool {p : Char → Bool} {t run rest : Text} :
    (ofBool p).TakesRun t run rest ↔ Text.Run p t run rest := by
  constructor
  · rintro ⟨heq, haccepts, hrefuses⟩
    refine ⟨heq, fun ch hch ↦ ?_, hrefuses⟩
    obtain ⟨before, after, hrun⟩ := List.append_of_mem hch
    exact haccepts before ch after hrun
  · rintro ⟨heq, hall, hstops⟩
    refine ⟨heq, fun before ch after hrun ↦ ?_, hstops⟩
    exact hall ch (hrun ▸ List.mem_append_right before List.mem_cons_self)

theorem takesRun_counting {test : CharTest σ} {n : Nat}
    (haccepts : ∀ shown ch, shown.length < n → test.verdict shown ch = true)
    (hrefuses : ∀ shown ch, shown.length = n → test.verdict shown ch = false) (t : Text) :
    test.TakesRun t (t.take n) (t.drop n) where
  eq := (List.take_append_drop n t).symm
  accepts before ch after hrun := by
    apply haccepts
    have hlength := congrArg List.length hrun
    rw [List.length_take, List.length_append, List.length_cons] at hlength
    omega
  refuses ch hrest := by
    apply hrefuses
    have hne : t.drop n ≠ [] := by
      intro hnil
      rw [hnil] at hrest
      cases hrest
    have hlt := List.length_pos_iff.2 hne
    rw [List.length_drop] at hlt
    exact List.length_take_of_le (by omega)

theorem stateAfter_first (n : Nat) (shown : Text) :
    (first n).stateAfter shown = shown.length := by
  have hcount (seen : Nat) : ((first n).resume seen).stateAfter shown = seen + shown.length := by
    induction shown generalizing seen with
    | nil => rfl
    | cons ch shown ih =>
      rw [List.length_cons, Nat.add_comm shown.length, ← Nat.add_assoc]
      exact ih (seen + 1)
  exact (hcount 0).trans (Nat.zero_add _)

theorem verdict_first (n : Nat) (shown : Text) (ch : Char) :
    (first n).verdict shown ch = decide (shown.length < n) := by
  rw [verdict, stateAfter_first]
  rfl

theorem takesRun_first (n : Nat) (t : Text) : (first n).TakesRun t (t.take n) (t.drop n) := by
  apply takesRun_counting
  · intro shown ch hlt
    rw [verdict_first, decide_eq_true hlt]
  · intro shown ch heq
    rw [verdict_first, decide_eq_false (by omega)]

end CharTest

end TextCursor
