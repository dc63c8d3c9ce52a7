import Mathlib.Data.Finset.Card
import SearchRelay.FileIndex

namespace SearchRelay.FileIndex

def paths (i : FileIndex) : Finset Key := i.keys.toFinset

theorem keys_nodup (i : FileIndex) : i.keys.Nodup := by
  rw [keys, List.Nodup, List.pairwise_map]
  refine i.ascending.imp ?_
  intro p q hlt he
  exact Path.not_ltComponents_self _ (he ▸ hlt)

theorem card_paths (i : FileIndex) : i.paths.card = i.size := by
  rw [paths, List.toFinset_card_of_nodup i.keys_nodup, keys, List.length_map, size]

theorem countMissing_eq_card {ks : List Key} (hk : ks.Nodup) (other : List Key) :
    countMissing ks other = (ks.toFinset \ other.toFinset).card := by
  have hs : ks.toFinset \ other.toFinset = (ks.filter fun k => !other.contains k).toFinset := by
    ext k
    simp
  rw [hs, List.toFinset_card_of_nodup (hk.filter _), countMissing]

variable (old new : FileIndex)

theorem diff_added : (old.diff new).added = (new.paths \ old.paths).card :=
  countMissing_eq_card new.keys_nodup old.keys

theorem diff_removed : (old.diff new).removed = (old.paths \ new.paths).card :=
  countMissing_eq_card old.keys_nodup new.keys

/-- A change is noticed exactly when there is one. -/
theorem diff_changed_iff :
    (0 < (old.diff new).added ∨ 0 < (old.diff new).removed) ↔ new.paths ≠ old.paths := by
  rw [diff_added, diff_removed, Finset.card_pos, Finset.card_pos, Finset.sdiff_nonempty,
    Finset.sdiff_nonempty, ← not_and_or, ← Finset.Subset.antisymm_iff]

theorem size_eq_of_paths_eq (h : new.paths = old.paths) : new.size = old.size := by
  rw [← card_paths, ← card_paths, h]

/-- What is there now and what is gone make up what was there and what is new. -/
theorem diff_conserves :
    new.size + (old.diff new).removed = old.size + (old.diff new).added := by
  have hnew := Finset.card_inter_add_card_sdiff new.paths old.paths
  have hold := Finset.card_inter_add_card_sdiff old.paths new.paths
  rw [Finset.inter_comm] at hold
  rw [diff_added, diff_removed, ← card_paths, ← card_paths]
  omega

end SearchRelay.FileIndex
