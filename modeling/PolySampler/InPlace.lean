/-!
Work on a state in place. It may be broken off with an error, and what has been
written by then stays written. A change that is granted or refused as a whole is the
special case in which an error leaves no trace.
-/

namespace PolySampler

/-- Work on a state in place, with an answer or an error at its end. -/
abbrev InPlace (ε σ : Type) := ExceptT ε (StateM σ)

namespace InPlace

variable {ε ε' σ τ α β : Type}

/-- What comes of the work, and the state it leaves. -/
def perform (work : InPlace ε σ α) (s : σ) : Except ε α × σ :=
  (work.run.run s).run

/-- A check that neither reads nor writes the state. -/
def check (answer : Except ε α) : InPlace ε σ α :=
  ExceptT.mk (pure answer)

/-- Work on a part of the state, which is put back however the work ends. -/
def onPart (get : σ → τ) (put : τ → σ → σ) (refusal : ε' → ε) (work : InPlace ε' τ α) :
    InPlace ε σ α :=
  ExceptT.mk fun s =>
    let (answer, part) := work.perform (get s)
    (answer.mapError refusal, put part s)

/-- The change that `f` makes if it grants it. -/
def wholly (f : σ → Except ε σ) : InPlace ε σ Unit :=
  ExceptT.mk fun s =>
    match f s with
    | .ok s' => (.ok (), s')
    | .error refusal => (.error refusal, s)

theorem ext {work work' : InPlace ε σ α} (h : ∀ s, work.perform s = work'.perform s) :
    work = work' :=
  funext h

/-- Work that has been broken off does not go on. -/
theorem perform_bind (work : InPlace ε σ α) (next : α → InPlace ε σ β) (s : σ) :
    (work >>= next).perform s = match work.perform s with
      | (.ok a, s') => (next a).perform s'
      | (.error refusal, s') => (.error refusal, s') := by
  simp only [perform, ExceptT.run_bind, StateT.run_bind, Id.run_bind]
  rcases (work.run.run s).run with ⟨_ | _, _⟩ <;> rfl

@[simp] theorem perform_get (s : σ) : (get : InPlace ε σ σ).perform s = (.ok s, s) := rfl

@[simp] theorem perform_modify (f : σ → σ) (s : σ) :
    (modify f : InPlace ε σ Unit).perform s = (.ok (), f s) := rfl

@[simp] theorem perform_throw (refusal : ε) (s : σ) :
    (throw refusal : InPlace ε σ α).perform s = (.error refusal, s) := rfl

@[simp] theorem perform_check (answer : Except ε α) (s : σ) :
    (check answer : InPlace ε σ α).perform s = (answer, s) := rfl

@[simp] theorem perform_onPart (get : σ → τ) (put : τ → σ → σ) (refusal : ε' → ε)
    (work : InPlace ε' τ α) (s : σ) :
    (onPart get put refusal work).perform s =
      ((work.perform (get s)).1.mapError refusal, put (work.perform (get s)).2 s) := rfl

theorem perform_wholly (f : σ → Except ε σ) (s : σ) :
    (wholly f).perform s = match f s with
      | .ok s' => (.ok (), s')
      | .error refusal => (.error refusal, s) := rfl

/-- A change that is refused leaves no trace. -/
theorem perform_wholly_of_error {f : σ → Except ε σ} {s : σ} {refusal : ε}
    (h : ((wholly f).perform s).1 = .error refusal) : ((wholly f).perform s).2 = s := by
  rw [perform_wholly] at h ⊢
  cases hf : f s with
  | ok s' =>
      rw [hf] at h
      cases h
  | error refusal' => rfl

end InPlace

end PolySampler
