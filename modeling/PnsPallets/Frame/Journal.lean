import PnsPallets.Frame.Machine

/-!
# Journals

A machine that publishes entries as it steps, and somebody who reads only the entries: if the
entries of every step carry what is read off the state before it to what is read off the state
after it, then replaying the whole journal gives what is read off the present state
(`journaling_replay`).
-/

namespace Frame

namespace Machine

variable {σ α ε γ : Type} {M : Machine σ α} {guard : σ → α → Prop}

/-- The machine with its journal. -/
def journaling (M : Machine σ α) (publish : σ → α → List ε) : Machine (σ × List ε) α :=
  M.logging [] fun s a journal => journal ++ publish s a

/-- The state beside a journal is reached. -/
theorem journaling_fst {publish : σ → α → List ε} {p : σ × List ε}
    (h : (M.journaling publish).Reach (fun p a => guard p.1 a) p) : M.Reach guard p.1 := by
  induction h with
  | init hp => exact .init hp.1
  | step _ hg ih => exact .step ih hg

/-- Replay rule: what holds of each step's entries holds of the journal. -/
theorem journaling_replay {publish : σ → α → List ε} {view : σ → γ} {fold : γ → ε → γ}
    {start : γ} (hinit : ∀ s, M.init s → view s = start)
    (hstep : ∀ s a, M.Reach guard s → guard s a →
      view (M.step s a) = (publish s a).foldl fold (view s))
    {p : σ × List ε} (h : (M.journaling publish).Reach (fun p a => guard p.1 a) p) :
    view p.1 = p.2.foldl fold start := by
  induction h with
  | @init p hp =>
    obtain ⟨hs, hnil⟩ := hp
    rw [hnil, hinit _ hs]
    rfl
  | @step p a hp hg ih =>
    show view (M.step p.1 a) = (p.2 ++ publish p.1 a).foldl fold start
    rw [List.foldl_append, ← ih]
    exact hstep p.1 a (journaling_fst hp) hg

end Machine

end Frame
