import SearchRelay.Proofs.Message.Passes

namespace SearchRelay

open Json Json.Decoder

namespace Emit

theorem governed : ∃ form blank, form.known = ["event", "data"] ∧
    Governed decoder form blank [] := by
  refine ⟨_, _, rfl, .of_record ?_ ?_ nofun⟩
  · simp only [List.forall_mem_cons]
    exact ⟨(Steady.text _).field _ _, Steady.free.field _ _, nofun⟩
  · simp only [List.map_cons, List.map_nil, List.pairwise_cons, List.forall_mem_cons]
    exact ⟨⟨Field.commute_of_sets fun _ _ _ => rfl, nofun⟩, nofun, .nil⟩

end Emit

namespace StatusPayload

theorem governed : ∃ form blank,
    form.known = ["state", "root", "files", "scans", "mock", "updated_at"] ∧
      Governed decoder form blank [("files", files), ("scans", scans)] := by
  refine ⟨_, _, rfl, .of_record ?_ ?_ ?_⟩
  · simp only [List.forall_mem_cons]
    exact ⟨(Steady.variant _).field _ _, (Steady.text _).field _ _, Steady.word.field _ _,
      Steady.word.field _ _, Steady.bool.field _ _, (Steady.parsed _ _).field _ _, nofun⟩
  · simp only [List.map_cons, List.map_nil, List.pairwise_cons, List.forall_mem_cons]
    refine ⟨⟨?_, ?_, ?_, ?_, ?_, nofun⟩, ⟨?_, ?_, ?_, ?_, nofun⟩, ⟨?_, ?_, ?_, nofun⟩,
      ⟨?_, ?_, nofun⟩, ⟨?_, nofun⟩, nofun, .nil⟩ <;> exact Field.commute_of_sets fun _ _ _ => rfl
  · simp only [List.forall_mem_cons]
    exact ⟨⟨_, rfl, fun _ _ => rfl⟩, ⟨_, rfl, fun _ _ => rfl⟩, nofun⟩

end StatusPayload

namespace IndexUpdate

theorem governed : ∃ form blank, form.known = ["files", "added", "removed"] ∧
    Governed decoder form blank [("files", files), ("added", added), ("removed", removed)] := by
  refine ⟨_, _, rfl, .of_record ?_ ?_ ?_⟩
  · simp only [List.forall_mem_cons]
    exact ⟨Steady.word.field _ _, Steady.word.field _ _, Steady.word.field _ _, nofun⟩
  · simp only [List.map_cons, List.map_nil, List.pairwise_cons, List.forall_mem_cons]
    refine ⟨⟨?_, ?_, nofun⟩, ⟨?_, nofun⟩, nofun, .nil⟩ <;>
      exact Field.commute_of_sets fun _ _ _ => rfl
  · simp only [List.forall_mem_cons]
    exact ⟨⟨_, rfl, fun _ _ => rfl⟩, ⟨_, rfl, fun _ _ => rfl⟩, ⟨_, rfl, fun _ _ => rfl⟩, nofun⟩

end IndexUpdate

namespace Progress

theorem governed : ∃ form blank, form.known = ["scanned", "total"] ∧
    Governed decoder form blank [("scanned", scanned), ("total", total)] := by
  refine ⟨_, _, rfl, .of_record ?_ ?_ ?_⟩
  · simp only [List.forall_mem_cons]
    exact ⟨Steady.word.field _ _, Steady.word.field _ _, nofun⟩
  · simp only [List.map_cons, List.map_nil, List.pairwise_cons, List.forall_mem_cons]
    exact ⟨⟨Field.commute_of_sets fun _ _ _ => rfl, nofun⟩, nofun, .nil⟩
  · simp only [List.forall_mem_cons]
    exact ⟨⟨_, rfl, fun _ _ => rfl⟩, ⟨_, rfl, fun _ _ => rfl⟩, nofun⟩

end Progress

namespace Welcome

theorem governed : ∃ form blank, form.known = ["client_id"] ∧
    Governed decoder form blank [] := by
  refine ⟨_, _, rfl, .of_record ?_ (List.pairwise_singleton _ _) nofun⟩
  simp only [List.forall_mem_cons]
  exact ⟨(Steady.parsed _ _).field _ _, nofun⟩

end Welcome

/-- Every message is told by its known fields alone. -/
structure FieldsDecide : Prop where
  event : Discerning (fun e : Emit => e.data.Proper ∧ e.data.nesting ≤ 126) Emit.decoder
    ["event", "data"] []
  status : Discerning StatusPayload.Valid StatusPayload.decoder
    ["state", "root", "files", "scans", "mock", "updated_at"]
    [("files", StatusPayload.files), ("scans", StatusPayload.scans)]
  update : Discerning IndexUpdate.Valid IndexUpdate.decoder ["files", "added", "removed"]
    [("files", IndexUpdate.files), ("added", IndexUpdate.added), ("removed", IndexUpdate.removed)]
  progress : Discerning Progress.Valid Progress.decoder ["scanned", "total"]
    [("scanned", Progress.scanned), ("total", Progress.total)]
  welcome : Discerning (fun _ => True) Welcome.decoder ["client_id"] []
  signal : Discerning (fun _ => True) QueueMessage.decoder ["kind", "client_id"] []

theorem Reads.discerning {α : Type} [ToMembers α] {decoder : Decoder α} {extractor : Extractor α}
    {valid : α → Prop} {known : List String} {counters : List (String × (α → Nat))}
    (reads : ∀ a, valid a → Reads decoder extractor a)
    (h : ∃ form blank, form.known = known ∧ Governed decoder form blank counters) :
    Discerning valid decoder known counters := by
  obtain ⟨form, blank, rfl, governed⟩ := h
  refine governed.discerning (fun a hvalid m hm => ?_) fun a hvalid => (reads a hvalid).run_toText
  have scalar := (reads a hvalid).flat.each m hm
  exact ⟨scalar.proper, scalar.nesting ▸ Nat.zero_le _⟩

theorem fields_decide : FieldsDecide where
  event := by
    obtain ⟨form, blank, hknown, governed⟩ := Emit.governed
    refine hknown ▸ governed.discerning (fun e ⟨proper, hnesting⟩ => ?_) fun e ⟨proper, hnesting⟩ =>
      Emit.run_shallow proper hnesting
    simp only [ToMembers.members, List.forall_mem_cons]
    exact ⟨⟨.string _, Nat.zero_le _⟩, ⟨proper, hnesting⟩, nofun⟩
  status := Reads.discerning (fun _ => StatusPayload.reads) StatusPayload.governed
  update := Reads.discerning (fun _ => IndexUpdate.reads) IndexUpdate.governed
  progress := Reads.discerning (fun _ => Progress.reads) Progress.governed
  welcome := Reads.discerning (fun w _ => w.reads) Welcome.governed
  signal := by
    obtain ⟨form, blank, hknown, governed⟩ := QueueMessage.governed
    refine hknown ▸ governed.discerning (fun m _ => ?_) fun m _ => m.run_toText
    simp only [ToMembers.members, List.forall_mem_cons]
    exact ⟨⟨.string _, Nat.zero_le _⟩, ⟨.string _, Nat.zero_le _⟩, nofun⟩

end SearchRelay
