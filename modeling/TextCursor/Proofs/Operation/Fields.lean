import TextCursor.Proofs.Bytes.Reading
import TextCursor.Proofs.Operation.Separator

namespace TextCursor

variable {ε σ : Type}

/-- Joined with separators between them, the fields make up the text, and no separator is part of a
field. -/
structure Text.FallsInto (separator : Char) (t : Text) (fields : List Text) : Prop where
  ne_nil : fields ≠ []
  not_mem : ∀ field ∈ fields, separator ∉ field
  join : [separator].intercalate fields = t

namespace Text.FallsInto

variable {separator : Char} {t before after : Text} {fields fields' : List Text}

theorem single (h : separator ∉ t) : FallsInto separator t [t] where
  ne_nil := List.cons_ne_nil _ _
  not_mem _ hfield := List.mem_singleton.1 hfield ▸ h
  join := List.intercalate_singleton

theorem cons (hsplit : t.SplitsAt separator before after) (h : FallsInto separator after fields) :
    FallsInto separator t (before :: fields) where
  ne_nil := List.cons_ne_nil _ _
  not_mem := List.forall_mem_cons.2 ⟨hsplit.not_mem, h.not_mem⟩
  join := by
    rw [List.intercalate_cons_of_ne_nil h.ne_nil, h.join, hsplit.eq, List.append_assoc,
      List.singleton_append]

theorem unique (h : FallsInto separator t fields) (h' : FallsInto separator t fields') :
    fields' = fields := by
  calc fields'
      = List.splitOn separator ([separator].intercalate fields') :=
        (List.splitOn_intercalate _ h'.not_mem h'.ne_nil).symm
    _ = List.splitOn separator ([separator].intercalate fields) := by rw [h'.join, h.join]
    _ = fields := List.splitOn_intercalate _ h.not_mem h.ne_nil

theorem length (h : FallsInto separator t fields) :
    fields.length = t.count separator + 1 := by
  obtain ⟨hne, hnot, rfl⟩ := h
  induction fields with
  | nil => exact absurd rfl hne
  | cons field fields ih =>
    obtain ⟨hfield, hrest⟩ := List.forall_mem_cons.1 hnot
    cases fields with
    | nil => rw [List.intercalate_singleton, List.count_eq_zero.2 hfield, List.length_singleton]
    | cons second fields =>
      rw [List.intercalate_cons_of_ne_nil (List.cons_ne_nil _ _), List.count_append,
        List.count_append, List.count_eq_zero.2 hfield, List.count_singleton_self,
        List.length_cons, ih (List.cons_ne_nil _ _) hrest]
      omega

end Text.FallsInto

namespace Operation

/-- From state `s`, fields are consumed through their separator for as long as there is one, and
what is left then is the last field. -/
inductive TakesFields (run : Operation → EStateM ε σ Value) (separator : Char) :
    σ → List Text → σ → Prop
  | last {s stuck last : σ} {t : Text} :
      run (.consumeThrough separator) s = .ok .nothing stuck →
      run .consumeRest stuck = .ok (.text t) last → TakesFields run separator s [t] last
  | more {s next last : σ} {t : Text} {fields : List Text} :
      run (.consumeThrough separator) s = .ok (.text t) next →
      TakesFields run separator next fields last → TakesFields run separator s (t :: fields) last

theorem TakesFields.unique {run : Operation → EStateM ε σ Value} {separator : Char}
    {s last last' : σ} {fields fields' : List Text} (h : TakesFields run separator s fields last)
    (h' : TakesFields run separator s fields' last') : fields' = fields ∧ last' = last := by
  induction h generalizing fields' last' with
  | last hstuck hrest =>
    cases h' with
    | last hstuck' hrest' =>
      rw [hstuck] at hstuck'
      cases hstuck'
      rw [hrest] at hrest'
      cases hrest'
      exact ⟨rfl, rfl⟩
    | more hfield' =>
      rw [hstuck] at hfield'
      cases hfield'
  | more hfield _ ih =>
    cases h' with
    | last hstuck' =>
      rw [hfield] at hstuck'
      cases hstuck'
    | more hfield' hmore' =>
      rw [hfield] at hfield'
      cases hfield'
      obtain ⟨rfl, rfl⟩ := ih hmore'
      exact ⟨rfl, rfl⟩

variable {separator : Char} {c next last : Cursor} {fields : List Text} {t : Text}

theorem splitsAt_of_consumeThrough (h : (consumeThrough separator).run c = .ok (.text t) next) :
    c.remaining.SplitsAt separator t next.remaining := by
  by_cases hmem : separator ∈ c.remaining
  · obtain ⟨before, after, hsplit⟩ := Text.exists_splitsAt hmem
    obtain ⟨_, hrun, rfl, -⟩ := consumeThrough_found hsplit
    rw [h] at hrun
    cases hrun
    exact hsplit
  · rw [consumeThrough_absent hmem] at h
    cases h

theorem of_consumeThrough_nothing {stuck : Cursor}
    (h : (consumeThrough separator).run c = .ok .nothing stuck) :
    separator ∉ c.remaining ∧ stuck = c := by
  by_cases hmem : separator ∈ c.remaining
  · obtain ⟨before, after, hsplit⟩ := Text.exists_splitsAt hmem
    obtain ⟨_, hrun, -⟩ := consumeThrough_found hsplit
    rw [h] at hrun
    cases hrun
  · rw [consumeThrough_absent hmem] at h
    cases h
    exact ⟨hmem, rfl⟩

theorem of_consumeRest (h : consumeRest.run c = .ok (.text t) last) :
    t = c.remaining ∧ last.remaining = [] := by
  cases h
  exact ⟨rfl, c.remaining_consumeRest⟩

theorem length_remaining_of_consumeThrough
    (h : (consumeThrough separator).run c = .ok (.text t) next) :
    next.remaining.length < c.remaining.length := by
  rw [(splitsAt_of_consumeThrough h).eq, List.length_append, List.length_cons]
  omega

/-- Each field but the last is paid for with a separator, so that they come to an end. -/
theorem consumeThrough_wellFounded (separator : Char) :
    WellFounded fun next c : Cursor ↦
      ∃ t, (consumeThrough separator).run c = .ok (.text t) next :=
  Subrelation.wf (fun ⟨_, h⟩ ↦ length_remaining_of_consumeThrough h)
    (measure fun c : Cursor ↦ c.remaining.length).wf

theorem exists_takesFields (separator : Char) (c : Cursor) :
    ∃ fields last, TakesFields run separator c fields last := by
  induction c using (consumeThrough_wellFounded separator).induction with
  | _ c ih =>
    by_cases hmem : separator ∈ c.remaining
    · obtain ⟨before, after, hsplit⟩ := Text.exists_splitsAt hmem
      obtain ⟨next, hfield, -⟩ := consumeThrough_found hsplit
      obtain ⟨fields, last, hmore⟩ := ih next ⟨before, hfield⟩
      exact ⟨before :: fields, last, .more hfield hmore⟩
    · exact ⟨[c.remaining], c.consumeRest.2, .last (consumeThrough_absent hmem) rfl⟩

namespace TakesFields

theorem fallsInto (h : TakesFields run separator c fields last) :
    c.remaining.FallsInto separator fields := by
  induction h with
  | last hstuck hrest =>
    obtain ⟨hnot, rfl⟩ := of_consumeThrough_nothing hstuck
    obtain ⟨rfl, -⟩ := of_consumeRest hrest
    exact .single hnot
  | more hfield _ ih => exact .cons (splitsAt_of_consumeThrough hfield) ih

theorem onward (h : TakesFields run separator c fields last) :
    c.Onward last ∧ last.remaining = [] := by
  induction h with
  | @last s stuck last t hstuck hrest =>
    obtain ⟨-, rfl⟩ := of_consumeThrough_nothing hstuck
    have hgo := Cursor.Onward.of_run consumeRest stuck
    rw [hrest] at hgo
    exact ⟨hgo, (of_consumeRest hrest).2⟩
  | @more s next last t fields hfield _ ih =>
    have hgo := Cursor.Onward.of_run (consumeThrough separator) s
    rw [hfield] at hgo
    exact ⟨hgo.trans ih.1, ih.2⟩

theorem toBytes (h : TakesFields run separator c fields last) :
    TakesFields runBytes separator c.toBytes fields last.toBytes := by
  induction h with
  | last hstuck hrest =>
    exact .last (runBytes_of_run hstuck) (runBytes_of_run hrest)
  | more hfield _ ih => exact .more (runBytes_of_run hfield) ih

end TakesFields

end Operation

/-- To take fields is the inverse of joining them. Wherever it begins, it comes to an end in one way
only, with the fields that the text ahead falls into. -/
theorem fields_join_back (separator : Char) (c : Cursor) :
    (WellFounded fun next c : Cursor ↦
      ∃ t, (Operation.consumeThrough separator).run c = .ok (.text t) next) ∧
    (∃ fields last,
      (∀ fields' last', Operation.TakesFields Operation.run separator c fields' last' ↔
        fields' = fields ∧ last' = last) ∧
      (∀ fields' b', Operation.TakesFields Operation.runBytes separator c.toBytes fields' b' ↔
        fields' = fields ∧ b' = last.toBytes) ∧
      fields.length = c.remaining.count separator + 1 ∧
      last.isDone = true ∧ last.consumed = c.source) ∧
    ∀ fields, (∃ last, Operation.TakesFields Operation.run separator c fields last) ↔
      fields ≠ [] ∧ (∀ field ∈ fields, separator ∉ field) ∧
        [separator].intercalate fields = c.remaining := by
  obtain ⟨fields, last, htakes⟩ := Operation.exists_takesFields separator c
  refine ⟨Operation.consumeThrough_wellFounded separator, ⟨fields, last, ?_⟩, fun fields' ↦ ?_⟩
  · obtain ⟨hgo, hend⟩ := htakes.onward
    have hconsumed : last.consumed = c.source := by
      rw [← hgo.source, Cursor.source, hend, List.append_nil]
    refine ⟨fun fields' last' ↦ ⟨htakes.unique, ?_⟩, fun fields' b' ↦ ⟨htakes.toBytes.unique, ?_⟩,
      htakes.fallsInto.length, List.isEmpty_iff.2 hend, hconsumed⟩
    · rintro ⟨rfl, rfl⟩
      exact htakes
    · rintro ⟨rfl, rfl⟩
      exact htakes.toBytes
  · constructor
    · rintro ⟨last', h⟩
      exact ⟨h.fallsInto.ne_nil, h.fallsInto.not_mem, h.fallsInto.join⟩
    · rintro ⟨hne, hnot, hjoin⟩
      obtain rfl := htakes.fallsInto.unique ⟨hne, hnot, hjoin⟩
      exact ⟨last, htakes⟩

theorem fields_join_back_dashes :
    ∃ last, Operation.TakesFields Operation.run '–'
        (.ofText {} ['–', 'é', '–', '–', 'b', '–']) [[], ['é'], [], ['b'], []] last ∧
      last.isDone = true ∧
      Operation.TakesFields Operation.runBytes '–'
        (Cursor.ofText {} ['–', 'é', '–', '–', 'b', '–']).toBytes [[], ['é'], [], ['b'], []]
        last.toBytes := by
  obtain ⟨-, ⟨fields, last, hrun, hbytes, -, hdone, -⟩, hjoin⟩ :=
    fields_join_back '–' (.ofText {} ['–', 'é', '–', '–', 'b', '–'])
  obtain ⟨last', htakes⟩ := (hjoin [[], ['é'], [], ['b'], []]).2 (by decide)
  obtain ⟨hfields, rfl⟩ := (hrun _ _).1 htakes
  exact ⟨_, htakes, hdone, (hbytes _ _).2 ⟨hfields, rfl⟩⟩

end TextCursor
