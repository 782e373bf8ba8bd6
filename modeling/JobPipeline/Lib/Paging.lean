import Mathlib.Data.List.Sort
import Mathlib.Data.List.Nodup

/-!
# Reading a sorted table page by page

Every page is cut out of a listing of its own: the same rows, sorted by a key, with the ties in
an order that may differ from listing to listing. The keys of the pages are the sorted keys
whatever happens (`map_key_pages`). The rows are not: a tie across the end of a page lets a row
be on both sides of it. `pages_perm` and `exists_pages_not_nodup` say that this is all that can
go wrong.
-/

set_option autoImplicit false

universe u v

namespace Paging

variable {α : Type u} {κ : Type v} [LinearOrder κ] {key : α → κ} {rows l l' : List α}
  {size : Nat}

/-- `l` is the rows with the largest keys first. -/
structure Lists (key : α → κ) (rows l : List α) : Prop where
  perm : l.Perm rows
  sorted : l.Pairwise fun a b => key b ≤ key a

/-- The page with this number, from zero. -/
def page (l : List α) (size i : Nat) : List α := (l.drop (i * size)).take size

/-- The number of pages that `n` rows fill. -/
def pageCount (n size : Nat) : Nat := (n + size - 1) / size

/-- The first `m` pages, each of its own listing. -/
def pages (listing : Nat → List α) (size m : Nat) : List α :=
  (List.range m).flatMap fun i => page (listing i) size i

/-- Places `p - 1` and `p` have the same key. -/
def TieAt (keys : List κ) (p : Nat) : Prop :=
  0 < p ∧ ∃ k, keys[p - 1]? = some k ∧ keys[p]? = some k

/-- The keys of the rows, largest first. -/
def sortedKeys (key : α → κ) (rows : List α) : List κ :=
  (rows.map key).insertionSort fun a b => b ≤ a

theorem lt_pageCount_iff (hsize : 1 ≤ size) {n i : Nat} :
    i < pageCount n size ↔ i * size < n := by
  unfold pageCount
  rw [← Nat.succ_le_iff, Nat.le_div_iff_mul_le hsize, Nat.succ_mul]
  omega

/-! ## The keys -/

/-- **The keys of a listing do not depend on the listing.** -/
theorem Lists.map_key (h : Lists key rows l) : l.map key = sortedKeys key rows := by
  have hsorted : (l.map key).Pairwise fun a b => b ≤ a := List.pairwise_map.mpr h.sorted
  have hperm : (l.map key).Perm (sortedKeys key rows) :=
    (h.perm.map key).trans (List.perm_insertionSort _ _).symm
  exact List.Perm.eq_of_pairwise (fun _ _ _ _ hab hba => le_antisymm hba hab) hsorted
    (List.pairwise_insertionSort _ _) hperm

theorem Lists.length_eq (h : Lists key rows l) : l.length = rows.length := h.perm.length_eq

theorem take_succ_mul (l : List α) (size i : Nat) :
    l.take ((i + 1) * size) = l.take (i * size) ++ page l size i := by
  rw [Nat.succ_mul, List.take_add, page]

theorem pages_succ (listing : Nat → List α) (size m : Nat) :
    pages listing size (m + 1) = pages listing size m ++ page (listing m) size m := by
  simp [pages, List.range_succ]

/-- **The pages show the keys in order.** -/
theorem map_key_pages {listing : Nat → List α} (h : ∀ i, Lists key rows (listing i)) (m : Nat) :
    (pages listing size m).map key = (sortedKeys key rows).take (m * size) := by
  induction m with
  | zero => simp [pages]
  | succ m ih =>
    have hpage : (page (listing m) size m).map key = page (sortedKeys key rows) size m := by
      rw [page, List.map_take, List.map_drop, (h m).map_key, page]
    rw [pages_succ, List.map_append, ih, hpage, take_succ_mul]

/-! ## Where no tie is cut -/

/-- Up to a place without a tie a listing is the rows with the largest keys. -/
theorem Lists.take_eq_filter (h : Lists key rows l) {p : Nat} (hp : 0 < p)
    {first last : κ} (hlast : (l.map key)[p - 1]? = some last)
    (hfirst : (l.map key)[p]? = some first) (hlt : first < last) :
    l.take p = l.filter fun x => last ≤ key x := by
  rw [List.getElem?_map, Option.map_eq_some_iff] at hlast hfirst
  obtain ⟨a, ha, rfl⟩ := hlast
  obtain ⟨b, hb, rfl⟩ := hfirst
  obtain ⟨hi, rfl⟩ := List.getElem?_eq_some_iff.mp ha
  obtain ⟨hj, rfl⟩ := List.getElem?_eq_some_iff.mp hb
  have hsorted := List.pairwise_iff_getElem.mp h.sorted
  have htake : (l.take p).filter (fun x => key l[p - 1] ≤ key x) = l.take p := by
    rw [List.filter_eq_self]
    intro x hx
    obtain ⟨k, hk, rfl⟩ := List.getElem_of_mem hx
    rw [List.length_take] at hk
    rw [List.getElem_take, decide_eq_true_eq]
    rcases Nat.lt_or_eq_of_le (show k ≤ p - 1 by omega) with hlt | rfl
    · exact hsorted k (p - 1) _ hi hlt
    · exact le_refl _
  have hdrop : (l.drop p).filter (fun x => key l[p - 1] ≤ key x) = [] := by
    rw [List.filter_eq_nil_iff]
    intro x hx
    obtain ⟨k, hk, rfl⟩ := List.getElem_of_mem hx
    rw [List.length_drop] at hk
    rw [List.getElem_drop, decide_eq_true_eq, not_le]
    rcases Nat.eq_zero_or_pos k with rfl | hpos
    · exact hlt
    · exact lt_of_le_of_lt (hsorted p (p + k) hj (by omega) (by omega)) hlt
  calc l.take p = (l.take p).filter (fun x => key l[p - 1] ≤ key x) ++
        (l.drop p).filter (fun x => key l[p - 1] ≤ key x) := by
        rw [htake, hdrop, List.append_nil]
    _ = l.filter fun x => key l[p - 1] ≤ key x := by
        rw [← List.filter_append, List.take_append_drop]

/-- Two listings agree on the rows up to such a place. -/
theorem Lists.take_perm (h : Lists key rows l) (h' : Lists key rows l') {p : Nat}
    (hp : ¬ TieAt (sortedKeys key rows) p) : (l.take p).Perm (l'.take p) := by
  rcases Nat.eq_zero_or_pos p with rfl | hpos
  · simp
  · rcases Nat.lt_or_ge p rows.length with hlt | hge
    · -- The keys on the two sides of the place.
      have hlength : (sortedKeys key rows).length = rows.length := by
        rw [← h.map_key, List.length_map, h.length_eq]
      obtain ⟨last, hlast⟩ : ∃ k, (sortedKeys key rows)[p - 1]? = some k :=
        ⟨_, List.getElem?_eq_getElem (by omega)⟩
      obtain ⟨first, hfirst⟩ : ∃ k, (sortedKeys key rows)[p]? = some k :=
        ⟨_, List.getElem?_eq_getElem (by omega)⟩
      have hne : first ≠ last := by
        rintro rfl
        exact hp ⟨hpos, first, hlast, hfirst⟩
      have hle : first ≤ last := by
        obtain ⟨hi, rfl⟩ := List.getElem?_eq_some_iff.mp hlast
        obtain ⟨hj, rfl⟩ := List.getElem?_eq_some_iff.mp hfirst
        exact List.pairwise_iff_getElem.mp (List.pairwise_insertionSort (fun a b => b ≤ a) _)
          (p - 1) p hi hj (by omega)
      have hdrop := lt_of_le_of_ne hle hne
      rw [h.take_eq_filter hpos (h.map_key ▸ hlast) (h.map_key ▸ hfirst) hdrop,
        h'.take_eq_filter hpos (h'.map_key ▸ hlast) (h'.map_key ▸ hfirst) hdrop]
      exact (h.perm.trans h'.perm.symm).filter _
    · rw [List.take_of_length_le (by rw [h.length_eq]; exact hge),
        List.take_of_length_le (by rw [h'.length_eq]; exact hge)]
      exact h.perm.trans h'.perm.symm

/-- **Pages that cut no tie show every row once.** -/
theorem pages_perm {listing : Nat → List α} (h : ∀ i, Lists key rows (listing i))
    (hties : ∀ i, ¬ TieAt (sortedKeys key rows) (i * size)) (hl : Lists key rows l) (m : Nat) :
    (pages listing size m).Perm (l.take (m * size)) := by
  induction m with
  | zero => simp [pages]
  | succ m ih =>
    have hbefore := (h m).take_perm hl (hties m)
    have hafter := (h m).take_perm hl (hties (m + 1))
    rw [take_succ_mul, take_succ_mul] at hafter
    have hpage : (page (listing m) size m).Perm (page l size m) :=
      (List.perm_append_left_iff _).mp (hafter.trans (hbefore.symm.append_right _))
    rw [pages_succ, take_succ_mul]
    exact ih.append hpage

/-- The pages of one listing are the listing. -/
theorem pages_const (l : List α) (size m : Nat) :
    pages (fun _ => l) size m = l.take (m * size) := by
  induction m with
  | zero => simp [pages]
  | succ m ih => rw [pages_succ, ih, take_succ_mul]

/-- The pages are enough for all rows. -/
theorem length_le_pageCount (hsize : 1 ≤ size) (n : Nat) : n ≤ pageCount n size * size :=
  not_lt.mp fun hlt => lt_irrefl _ ((lt_pageCount_iff hsize).mpr hlt)

/-! ## Where a tie is cut -/

/-- The last row of a page. -/
theorem mem_page_pred (hsize : 1 ≤ size) {i : Nat} {a : α} (hi : 0 < i)
    (ha : l[i * size - 1]? = some a) : a ∈ page l size (i - 1) := by
  apply List.mem_of_getElem? (i := size - 1)
  rw [page, List.getElem?_take_of_lt (by omega), List.getElem?_drop, ← ha]
  congr 1
  obtain ⟨j, rfl⟩ := Nat.exists_eq_succ_of_ne_zero hi.ne'
  rw [Nat.succ_sub_one, Nat.succ_mul]
  omega

/-- The first row of a page. -/
theorem mem_page (hsize : 1 ≤ size) {i : Nat} {a : α} (ha : l[i * size]? = some a) :
    a ∈ page l size i := by
  apply List.mem_of_getElem? (i := 0)
  rw [page, List.getElem?_take_of_lt (by omega), List.getElem?_drop, Nat.add_zero, ha]

/-- Two neighbours with the same key may be listed the other way. -/
theorem Lists.exists_swap (hl : Lists key rows l) {p : Nat}
    (htie : TieAt (sortedKeys key rows) p) :
    ∃ a l', l[p - 1]? = some a ∧ l'[p]? = some a ∧ Lists key rows l' := by
  obtain ⟨hpos, k, hlast, hfirst⟩ := htie
  rw [← hl.map_key, List.getElem?_map, Option.map_eq_some_iff] at hlast hfirst
  obtain ⟨a, ha, rfl⟩ := hlast
  obtain ⟨b, hb, hkey⟩ := hfirst
  obtain ⟨hi, rfl⟩ := List.getElem?_eq_some_iff.mp ha
  obtain ⟨hj, rfl⟩ := List.getElem?_eq_some_iff.mp hb
  have hsplit : l = l.take (p - 1) ++ l[p - 1] :: l[p] :: l.drop (p + 1) := by
    conv_lhs => rw [← List.take_append_drop (p - 1) l]
    rw [List.drop_eq_getElem_cons hi, List.drop_eq_getElem_cons (show p - 1 + 1 < l.length by omega)]
    congr 3
    · congr 1
      omega
    · congr 1
      omega
  have hlength : (l.take (p - 1)).length = p - 1 := by
    rw [List.length_take]
    omega
  generalize l.take (p - 1) = before at hsplit hlength
  generalize l.drop (p + 1) = after at hsplit
  generalize l[p - 1] = a at hsplit hkey ha
  generalize l[p] = b at hsplit hkey
  refine ⟨a, before ++ b :: a :: after, ha, ?_, ?_, ?_⟩
  · rw [List.getElem?_append_right (by omega), hlength]
    obtain ⟨q, rfl⟩ := Nat.exists_eq_succ_of_ne_zero hpos.ne'
    simp
  · refine List.Perm.trans ?_ hl.perm
    rw [hsplit]
    exact (List.Perm.swap a b after).append_left before
  · have hsorted := hl.sorted
    rw [hsplit] at hsorted
    simp only [List.pairwise_append, List.pairwise_cons, List.mem_cons, forall_eq_or_imp, hkey]
      at hsorted ⊢
    obtain ⟨hbefore, ⟨⟨-, haft⟩, -, hafter⟩, hcross⟩ := hsorted
    exact ⟨hbefore, ⟨⟨le_refl _, haft⟩, haft, hafter⟩, fun x hx =>
      ⟨(hcross x hx).1, (hcross x hx).1, (hcross x hx).2.2⟩⟩

/-- **A cut tie can show a row twice.** -/
theorem exists_pages_not_nodup (hsize : 1 ≤ size) (hl : Lists key rows l) {i : Nat}
    (htie : TieAt (sortedKeys key rows) (i * size)) :
    ∃ listing : Nat → List α, (∀ j, Lists key rows (listing j)) ∧
      ¬ (pages listing size (pageCount rows.length size)).Nodup := by
  have hi : 0 < i := Nat.pos_of_ne_zero fun h => by
    subst h
    simp [TieAt] at htie
  obtain ⟨a, l', ha, ha', hl'⟩ := hl.exists_swap htie
  have hlt : i < pageCount rows.length size := by
    rw [lt_pageCount_iff hsize, ← hl'.length_eq]
    exact (List.getElem?_eq_some_iff.mp ha').1
  refine ⟨fun j => if j = i then l' else l, fun j => ?_, fun hnodup => ?_⟩
  · dsimp only
    split
    · exact hl'
    · exact hl
  · -- The row ends one page and starts the next.
    have hdisjoint := List.pairwise_iff_getElem.mp (List.nodup_flatMap.mp hnodup).2 (i - 1) i
      (by rw [List.length_range]; omega) (by rw [List.length_range]; exact hlt) (by omega)
    simp only [List.getElem_range, Function.onFun] at hdisjoint
    rw [if_neg (by omega), if_true] at hdisjoint
    exact hdisjoint (mem_page_pred hsize hi ha) (mem_page hsize ha')

end Paging
