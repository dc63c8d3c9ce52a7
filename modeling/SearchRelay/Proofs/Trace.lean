
namespace SearchRelay.Trace

variable {σ α β : Type} (step : σ → α → σ) (f : σ → α → List β)

def along (s : σ) : List α → List β
  | [] => []
  | a :: r => f s a ++ along (step s a) r

theorem along_append (s : σ) (as more : List α) :
    along step f s (as ++ more) = along step f s as ++ along step f (as.foldl step s) more := by
  induction as generalizing s with
  | nil => rfl
  | cons a as ih => rw [List.cons_append, along, along, ih, List.append_assoc, List.foldl_cons]

theorem along_concat (s : σ) (as : List α) (a : α) :
    along step f s (as ++ [a]) = along step f s as ++ f (as.foldl step s) a := by
  rw [along_append, along, along, List.append_nil]

theorem along_map {γ : Type} {f : σ → α → List β} {g : σ → α → List γ} {h : γ → β}
    (eq : ∀ s a, f s a = (g s a).map h) (s : σ) (as : List α) :
    along step f s as = (along step g s as).map h := by
  induction as generalizing s with
  | nil => rfl
  | cons a as ih => rw [along, along, List.map_append, eq, ih]

theorem forall_mem_along {f : σ → α → List β} {p : β → Prop} (h : ∀ s a, ∀ b ∈ f s a, p b)
    (s : σ) (as : List α) : ∀ b ∈ along step f s as, p b := by
  induction as generalizing s with
  | nil => exact List.forall_mem_nil _
  | cons a as ih => exact List.forall_mem_append.2 ⟨h s a, ih (step s a)⟩

/-- What each step raises by its count, a run raises by the count of its acts. -/
theorem count_foldl (size : σ → Nat) (p : α → Bool)
    (h : ∀ s a, size (step s a) = size s + [a].countP p) (s : σ) (as : List α) :
    size (as.foldl step s) = size s + as.countP p := by
  induction as generalizing s with
  | nil => rfl
  | cons a as ih =>
    rw [List.foldl_cons, ih, h, Nat.add_assoc, ← List.countP_append]
    rfl

end SearchRelay.Trace
