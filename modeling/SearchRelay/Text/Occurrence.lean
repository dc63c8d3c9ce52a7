namespace SearchRelay.Text

def occurs (s : List Char) : List Char → Bool
  | [] => s.isEmpty
  | c :: r => s.isPrefixOf (c :: r) || occurs s r

theorem occurs_iff {s cs : List Char} : occurs s cs ↔ s <:+: cs := by
  induction cs with
  | nil => simp [occurs, List.infix_nil]
  | cons c cs ih => simp [occurs, ih, List.infix_cons_iff]

end SearchRelay.Text
