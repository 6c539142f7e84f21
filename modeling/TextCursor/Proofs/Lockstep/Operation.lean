import Mathlib.Data.List.Forall2
import TextCursor.Proofs.Reading.Induction

namespace TextCursor

variable {α α' β β' σ τ : Type}

/-- Two answers that are the same but for the failures and the entries that they show. -/
inductive Value.Like (F : Failure → Failure → Prop) (E : List Entry → List Entry → Prop) :
    Value → Value → Prop
  | nothing : Like F E .nothing .nothing
  | flag (b : Bool) : Like F E (.flag b) (.flag b)
  | count (n : Nat) : Like F E (.count n) (.count n)
  | integer (n : Int) : Like F E (.integer n) (.integer n)
  | char (c : Char) : Like F E (.char c) (.char c)
  | text (t : Text) : Like F E (.text t) (.text t)
  | entries {es es' : List Entry} : E es es' → Like F E (.entries es) (.entries es')
  | number (n : Int) : Like F E (.attempt (.ok n)) (.attempt (.ok n))
  | failure {e e' : Failure} : F e e' → Like F E (.attempt (.error e)) (.attempt (.error e'))
  | list {vs vs' : List Value} : List.Forall₂ (Like F E) vs vs' → Like F E (.list vs) (.list vs')

inductive Alike (F : Failure → Failure → Prop) (A : α → β → Prop) (R : σ → τ → Prop) :
    EStateM.Result Failure σ α → EStateM.Result Failure τ β → Prop
  | ok {a : α} {b : β} {s : σ} {t : τ} : A a b → R s t → Alike F A R (.ok a s) (.ok b t)
  | error {e e' : Failure} {s : σ} {t : τ} :
      F e e' → R s t → Alike F A R (.error e s) (.error e' t)

/-- The operation answers from the text ahead. The other ones tell of the place or of the
journal. -/
def Operation.Local : Operation → Prop
  | source | offset | charOffset | takeLog => False
  | _ => True

section Alike

variable {F : Failure → Failure → Prop} {E : List Entry → List Entry → Prop} {A : α → α' → Prop}
variable {B : β → β' → Prop} {R : Cursor → Cursor → Prop} {c c' : Cursor}

theorem Value.Like.ofOption {f : α → Value} (hf : ∀ a, Like F E (f a) (f a)) (o : Option α) :
    Like F E (.ofOption f o) (.ofOption f o) := by
  cases o with
  | none => exact .nothing
  | some a => exact hf a

mutual

theorem Value.Like.eq {v v' : Value} : Value.Like Eq Eq v v' → v' = v
  | .nothing | .flag _ | .count _ | .integer _ | .char _ | .text _ | .number _ => rfl
  | .entries h => congrArg Value.entries h.symm
  | .failure h => congrArg (fun e ↦ Value.attempt (.error e)) h.symm
  | .list h => congrArg Value.list (Value.Like.eq_of_forall₂ h)

theorem Value.Like.eq_of_forall₂ {vs vs' : List Value} :
    List.Forall₂ (Value.Like Eq Eq) vs vs' → vs' = vs
  | .nil => rfl
  | .cons h hs => congrArg₂ List.cons h.eq (Value.Like.eq_of_forall₂ hs)

end

theorem Operation.alike_of_place {op : Operation} (hop : ¬ op.Local) (htake : op ≠ .takeLog)
    (h : R c c') (hbehind : c'.behind = c.behind) (hremaining : c'.remaining = c.remaining) :
    Alike F (Value.Like F E) R (op.run c) (op.run c') := by
  cases op with
  | source =>
    refine .ok (?_ : Value.Like F E (.text c.source) (.text c'.source)) h
    rw [Cursor.source, Cursor.source, Cursor.consumed, Cursor.consumed, hbehind, hremaining]
    exact .text _
  | offset =>
    refine .ok (?_ : Value.Like F E (.count c.offset) (.count c'.offset)) h
    rw [Cursor.offset, Cursor.offset, hbehind]
    exact .count _
  | charOffset =>
    refine .ok (?_ : Value.Like F E (.count c.charOffset) (.count c'.charOffset)) h
    rw [Cursor.charOffset, Cursor.charOffset, hbehind]
    exact .count _
  | takeLog => exact absurd rfl htake
  | _ => exact absurd trivial hop

theorem Alike.map {f : α → β} {f' : α' → β'} {read : Scan α} {read' : Scan α'}
    (h : Alike F A R (read c) (read' c')) (hf : ∀ a a', A a a' → B (f a) (f' a')) :
    Alike F B R ((f <$> read) c) ((f' <$> read') c') := by
  simp only [Functor.map, EStateM.map]
  generalize read c = end₁, read' c' = end₂ at h
  cases h with
  | ok ha hR => exact .ok (hf _ _ ha) hR
  | error he hR => exact .error he hR

theorem Alike.of_ok {S : σ → τ → Prop} {r : EStateM.Result Failure σ α}
    {r' : EStateM.Result Failure τ α'} {a : α} {s : σ} (h : Alike F A S r r') (hr : r = .ok a s) :
    ∃ a' t, r' = .ok a' t ∧ A a a' ∧ S s t := by
  cases h with
  | ok ha hs => cases hr; exact ⟨_, _, rfl, ha, hs⟩
  | error => cases hr

theorem Alike.of_error {S : σ → τ → Prop} {r : EStateM.Result Failure σ α}
    {r' : EStateM.Result Failure τ α'} {e : Failure} {s : σ} (h : Alike F A S r r')
    (hr : r = .error e s) : ∃ e' t, r' = .error e' t ∧ F e e' ∧ S s t := by
  cases h with
  | ok => cases hr
  | error he hs => cases hr; exact ⟨_, _, rfl, he, hs⟩

abbrev Met (R : Cursor → Cursor → Prop) : Option (α × Cursor) → Option (α × Cursor) → Prop :=
  Option.Rel fun p p' ↦ p.1 = p'.1 ∧ R p.2 p'.2

inductive MetOrFailed (F : Failure → Failure → Prop) (R : Cursor → Cursor → Prop) :
    Except Failure (α × Cursor) → Except Failure (α × Cursor) → Prop
  | ok {a : α} {next next' : Cursor} :
      R next next' → MetOrFailed F R (.ok (a, next)) (.ok (a, next'))
  | error {e e' : Failure} : F e e' → MetOrFailed F R (.error e) (.error e')

namespace Scan

theorem attempt_alike {f : Cursor → Option (α × Cursor)} (hc : R c c') (h : Met R (f c) (f c')) :
    Alike F Eq R (attempt f c) (attempt f c') := by
  unfold attempt
  generalize f c = found, f c' = found' at h
  cases h with
  | none => exact .ok rfl hc
  | @some p p' h => exact .ok (congrArg some h.1) h.2

theorem demand_alike {f : Cursor → Option (α × Cursor)} {cause : Cursor → Cause} (hc : R c c')
    (hcause : F ⟨cause c, c.offset⟩ ⟨cause c', c'.offset⟩) (h : Met R (f c) (f c')) :
    Alike F Eq R (demand f cause c) (demand f cause c') := by
  unfold demand
  generalize f c = found, f c' = found' at h
  cases h with
  | none => exact .error hcause hc
  | @some p p' h => exact .ok h.1 h.2

theorem attemptExcept_alike {f : Cursor → Except Failure (Int × Cursor)} (hc : R c c')
    (h : MetOrFailed F R (f c) (f c')) :
    Alike F (Value.Like F E) R ((Value.attempt <$> attemptExcept f) c)
      ((Value.attempt <$> attemptExcept f) c') := by
  simp only [Functor.map, EStateM.map, attemptExcept]
  generalize f c = found, f c' = found' at h
  cases h with
  | ok hR => exact .ok (.number _) hR
  | error he => exact .ok (.failure he) hc

theorem demandExcept_alike {f : Cursor → Except Failure (α × Cursor)} (hc : R c c')
    (h : MetOrFailed F R (f c) (f c')) :
    Alike F Eq R (demandExcept f c) (demandExcept f c') := by
  unfold demandExcept
  generalize f c = found, f c' = found' at h
  cases h with
  | ok hR => exact .ok rfl hR
  | error he => exact .error he hc

end Scan

end Alike

/-- Two runs are in lockstep while their cursors stand in relation `R`, of runs in which all steps
satisfy `P`. Failures then compare by `F` and journals that are taken by `E`. -/
structure Lockstep (F : Failure → Failure → Prop) (E : List Entry → List Entry → Prop)
    (P : Step → Prop) (R : Cursor → Cursor → Prop) : Prop where
  remaining : ∀ {c c'}, R c c' → c'.remaining = c.remaining
  advance : ∀ {c c'} n, R c c' → R (c.advance n) (c'.advance n)
  record : ∀ {c c' start start'} event, R start start' → R c c' →
    R (c.record start event) (c'.record start' event)
  enter : ∀ {c c'} index, R c c' → R (c.enter index) (c'.enter index)
  leave : ∀ {c c'}, R c c' → R c.leave c'.leave
  failure : ∀ {c c'} cause n, R c c' → F ⟨cause, c.offset + n⟩ ⟨cause, c'.offset + n⟩
  /-- What the runs tell of their places and journals, where such steps are taken. -/
  place : ∀ {op}, P (.perform op) → ¬ op.Local → ∀ {c c'}, R c c' →
    Alike F (Value.Like F E) R (op.run c) (op.run c')
  /-- The lists of the configured form, where such are read. -/
  delimiters : ∀ {element}, P (.read (.list element)) → ∀ {c c'}, R c c' →
    c'.delimiters = c.delimiters

namespace Lockstep

variable {F : Failure → Failure → Prop} {E : List Entry → List Entry → Prop} {P : Step → Prop}
variable {R : Cursor → Cursor → Prop} (hR : Lockstep F E P R)
include hR

section Primitives

variable {c c' : Cursor} (h : R c c')
include h

theorem recordText {start start' : Cursor} (hstart : R start start') (event : Event)
    (fragment : Text) :
    R (c.recordText start event fragment) (c'.recordText start' event fragment) := by
  unfold Cursor.recordText
  split
  · exact h
  · exact hR.record event hstart h

theorem consume? (literal : Text) :
    Option.Rel R (c.consume? literal) (c'.consume? literal) := by
  unfold Cursor.consume?
  rw [hR.remaining h]
  split
  · exact .some (hR.recordText (hR.advance _ h) h _ _)
  · exact .none

theorem exists_consumeChar? {ch : Char} {next : Cursor} (hnext : c.consumeChar? ch = some next) :
    ∃ next', c'.consumeChar? ch = some next' ∧ R next next' := by
  have hfound := hR.consume? h [ch]
  rw [show c.consume? [ch] = some next from hnext] at hfound
  generalize hnext' : c'.consume? [ch] = found' at hfound
  cases hfound with
  | some hrel => exact ⟨_, hnext', hrel⟩

theorem consumeChar?_eq_none {ch : Char} (hnone : c.consumeChar? ch = none) :
    c'.consumeChar? ch = none := by
  have hfound := hR.consume? h [ch]
  rw [show c.consume? [ch] = none from hnone] at hfound
  generalize hnone' : c'.consume? [ch] = found' at hfound
  cases hfound with
  | none => exact hnone'

theorem consumeUnit? (literal : Text) :
    Met R ((c.consume? literal).map ((), ·)) ((c'.consume? literal).map ((), ·)) := by
  have hfound := hR.consume? h literal
  generalize c.consume? literal = found, c'.consume? literal = found' at hfound
  cases hfound with
  | none => exact .none
  | some hnext => exact .some ⟨rfl, hnext⟩

theorem consumeThrough? (separator : Char) :
    Met R (c.consumeThrough? separator) (c'.consumeThrough? separator) := by
  unfold Cursor.consumeThrough? Cursor.fragmentBefore?
  rw [hR.remaining h]
  cases c.remaining.indexOf? separator with
  | none => exact .none
  | some i => exact .some ⟨rfl, hR.record _ h (hR.advance _ h)⟩

theorem consumeUpTo? (separator : Char) :
    Met R (c.consumeUpTo? separator) (c'.consumeUpTo? separator) := by
  unfold Cursor.consumeUpTo? Cursor.fragmentBefore?
  rw [hR.remaining h]
  cases c.remaining.indexOf? separator with
  | none => exact .none
  | some i => exact .some ⟨rfl, hR.record _ h (hR.advance _ h)⟩

theorem skipCopies (ch : Char) : R (c.skipCopies ch) (c'.skipCopies ch) := by
  unfold Cursor.skipCopies
  rw [hR.remaining h]
  exact hR.advance _ h

theorem consumeWhile (test : CharTest τ) :
    (c.consumeWhile test).1 = (c'.consumeWhile test).1 ∧
      R (c.consumeWhile test).2 (c'.consumeWhile test).2 := by
  unfold Cursor.consumeWhile
  rw [hR.remaining h]
  exact ⟨rfl, hR.advance _ h⟩

theorem next? : Met R c.next? c'.next? := by
  unfold Cursor.next?
  rw [hR.remaining h]
  cases c.remaining.head? with
  | none => exact .none
  | some ch => exact .some ⟨rfl, hR.advance 1 h⟩

theorem nextN? (n : Nat) : Met R (c.nextN? n) (c'.nextN? n) := by
  unfold Cursor.nextN?
  rw [hR.remaining h]
  split
  · exact .some ⟨rfl, hR.advance n h⟩
  · exact .none

theorem consumeRest : c.consumeRest.1 = c'.consumeRest.1 ∧
    R c.consumeRest.2 c'.consumeRest.2 := by
  unfold Cursor.consumeRest
  rw [hR.remaining h]
  exact ⟨rfl, hR.recordText (hR.advance _ h) h _ _⟩

theorem readWord : c.readWord.1 = c'.readWord.1 ∧ R c.readWord.2 c'.readWord.2 := by
  obtain ⟨hword, hnext⟩ := hR.consumeWhile h (.ofBool isWordCharacter)
  unfold Cursor.readWord
  dsimp only
  rw [hword]
  exact ⟨rfl, hR.recordText hnext h _ _⟩

theorem readInteger? (type : IntegerType) :
    MetOrFailed F R (c.readInteger? type) (c'.readInteger? type) := by
  simp only [Cursor.readInteger?, hR.remaining h]
  split
  · exact .error (hR.failure _ _ h)
  · split
    · exact .ok (hR.record _ h (hR.advance _ h))
    · exact .error (hR.failure _ 0 h)

theorem readHex? : MetOrFailed F R c.readHex? c'.readHex? := by
  simp only [Cursor.readHex?, hR.remaining h]
  split
  · exact .error (hR.failure _ _ h)
  · split
    · exact .ok (hR.record _ h (hR.advance _ h))
    · exact .error (hR.failure _ 0 h)

end Primitives

theorem run (op : Operation) (hop : P (.perform op) ∨ op.Local) {c c' : Cursor} (h : R c c') :
    Alike F (Value.Like F E) R (op.run c) (op.run c') := by
  have hflag {a a' : Option Unit} (ha : a = a') :
      Value.Like F E (.flag a.isSome) (.flag a'.isSome) := by
    subst ha
    exact .flag _
  have htext {a a' : Option Text} (ha : a = a') :
      Value.Like F E (.ofOption .text a) (.ofOption .text a') := by
    subst ha
    exact .ofOption .text a
  have hcause (cause : Cause) : F ⟨cause, c.offset⟩ ⟨cause, c'.offset⟩ := hR.failure cause 0 h
  cases op with
  | source | offset | charOffset | takeLog => exact hR.place (hop.resolve_right id) id h
  | remaining =>
    refine .ok (?_ : Value.Like F E (.text c.remaining) (.text c'.remaining)) h
    rw [hR.remaining h]
    exact .text _
  | isDone =>
    refine .ok (?_ : Value.Like F E (.flag c.isDone) (.flag c'.isDone)) h
    rw [Cursor.isDone, Cursor.isDone, hR.remaining h]
    exact .flag _
  | peek =>
    refine .ok (?_ : Value.Like F E (.ofOption .char c.peek?) (.ofOption .char c'.peek?)) h
    rw [Cursor.peek?, Cursor.peek?, hR.remaining h]
    exact .ofOption .char _
  | tryConsume literal =>
    exact (Scan.attempt_alike h (hR.consumeUnit? h literal)).map fun _ _ ↦ hflag
  | tryConsumeChar ch =>
    exact (Scan.attempt_alike h (hR.consumeUnit? h [ch])).map fun _ _ ↦ hflag
  | consume literal =>
    refine (Scan.demand_alike h ?_ (hR.consumeUnit? h literal)).map fun _ _ _ ↦ .nothing
    rw [hR.remaining h]
    exact hcause _
  | consumeThrough separator =>
    exact (Scan.attempt_alike h (hR.consumeThrough? h separator)).map fun _ _ ↦ htext
  | consumeUpTo separator =>
    exact (Scan.attempt_alike h (hR.consumeUpTo? h separator)).map fun _ _ ↦ htext
  | consumeCopiesOf ch => exact .ok .nothing (hR.skipCopies h ch)
  | consumeWhile p =>
    obtain ⟨hrun, hnext⟩ := hR.consumeWhile h p.test
    exact .ok (hrun ▸ .text _) hnext
  | consumeBlanks =>
    obtain ⟨hrun, hnext⟩ := hR.consumeWhile h (.ofBool isBlank)
    exact .ok (hrun ▸ .text _) hnext
  | tryConsumeNext =>
    refine (Scan.attempt_alike h (hR.next? h)).map fun ch ch' hch ↦ ?_
    subst hch
    exact .ofOption .char ch
  | consumeNext =>
    refine (Scan.demand_alike h (hcause _) (hR.next? h)).map fun ch ch' hch ↦ ?_
    exact hch ▸ .char ch
  | tryConsumeNextN n =>
    exact (Scan.attempt_alike h (hR.nextN? h n)).map fun _ _ ↦ htext
  | consumeNextN n =>
    refine (Scan.demand_alike h ?_ (hR.nextN? h n)).map fun t t' ht ↦ ht ▸ .text t
    rw [hR.remaining h]
    exact hcause _
  | consumeRest =>
    obtain ⟨hrest, hnext⟩ := hR.consumeRest h
    exact .ok (hrest ▸ .text _) hnext
  | tryReadInteger type => exact Scan.attemptExcept_alike h (hR.readInteger? h type)
  | readInteger type =>
    refine (Scan.demandExcept_alike h (hR.readInteger? h type)).map fun n n' hn ↦ ?_
    exact hn ▸ .integer n
  | tryReadHex => exact Scan.attemptExcept_alike h (hR.readHex? h)
  | readHex =>
    exact (Scan.demandExcept_alike h (hR.readHex? h)).map fun n n' hn ↦ hn ▸ .integer n
  | readWord =>
    obtain ⟨hword, hnext⟩ := hR.readWord h
    exact .ok (hword ▸ .text _) hnext

end Lockstep

end TextCursor
