import KbmOs.Lib.FreeList
import Mathlib.Data.List.Sort
/-!
# A free list is given by its ends

An ascending list of blocks is determined by the addresses its blocks start
at and those they stop at (`Ascending.ext`). Releasing a block acts on
these two sets in a simple way: of the block's own ends, one that another
block shares disappears with it (`starts_release`, `stops_release`). So
releases commute, and a set of blocks can be released in any order
(`releaseAll_perm`), whichever neighbours are joined on the way.
-/

namespace FreeList

open Tiling

variable {h a x : ℕ} {b c d : Blk} {l l' pre post bs bs' : List Blk}

/-- The addresses the blocks start at. -/
def starts (l : List Blk) : Set ℕ := {x | ∃ b ∈ l, b.addr = x}

/-- And those they stop at. -/
def stops (h : ℕ) (l : List Blk) : Set ℕ := {x | ∃ b ∈ l, b.stop h = x}

@[simp] theorem mem_starts : x ∈ starts l ↔ ∃ b ∈ l, b.addr = x := Iff.rfl

@[simp] theorem mem_stops : x ∈ stops h l ↔ ∃ b ∈ l, b.stop h = x := Iff.rfl

theorem addr_lt_stop (hpos : 0 < h) (b : Blk) : b.addr < b.stop h := by
  unfold Blk.stop
  omega

theorem eq_of_ends (hl : l.map Blk.addr = l'.map Blk.addr)
    (hstop : l.map (Blk.stop h) = l'.map (Blk.stop h)) : l = l' := by
  induction l generalizing l' with
  | nil => exact (List.map_eq_nil_iff.1 hl.symm).symm
  | cons b l ih =>
    cases l' with
    | nil => cases hl
    | cons c l' =>
      obtain ⟨haddr, hrest⟩ := List.cons.inj hl
      obtain ⟨hsize, hrest'⟩ := List.cons.inj hstop
      have hbc : b = c := by
        obtain ⟨addr, size⟩ := b
        obtain ⟨addr', size'⟩ := c
        unfold Blk.stop at hsize
        obtain rfl : addr = addr' := haddr
        obtain rfl : size = size' := Nat.add_left_cancel hsize
        rfl
      rw [hbc, ih hrest hrest']

/-- **Ascending lists with the same ends are the same.** -/
theorem Ascending.ext (hpos : 0 < h) (hl : Ascending h l) (hl' : Ascending h l')
    (hstart : starts l = starts l') (hstop : stops h l = stops h l') : l = l' := by
  have hsorted : ∀ {l : List Blk}, Ascending h l → (l.map Blk.addr).Pairwise (· < ·) :=
    fun hl => List.pairwise_map.2 (hl.sorted hpos)
  have hstops : ∀ {l : List Blk}, Ascending h l → (l.map (Blk.stop h)).Pairwise (· < ·) :=
    fun hl => List.pairwise_map.2 (hl.imp fun {b c} hbc => lt_of_le_of_lt hbc (addr_lt_stop hpos c))
  refine eq_of_ends (h := h) ?_ ?_
  · refine (hsorted hl).eq_of_mem_iff (hsorted hl') fun x => ?_
    rw [List.mem_map, List.mem_map]
    exact Set.ext_iff.1 hstart x
  · refine (hstops hl).eq_of_mem_iff (hstops hl') fun x => ?_
    rw [List.mem_map, List.mem_map]
    exact Set.ext_iff.1 hstop x

/-! ## What releasing does to the ends -/

theorem starts_append : starts (pre ++ post) = starts pre ∪ starts post := by
  ext x
  simp only [mem_starts, Set.mem_union, List.mem_append, or_and_right, exists_or]

theorem stops_append : stops h (pre ++ post) = stops h pre ∪ stops h post := by
  ext x
  simp only [mem_stops, Set.mem_union, List.mem_append, or_and_right, exists_or]

theorem starts_cons : starts (b :: l) = {b.addr} ∪ starts l := by
  ext x
  simp [eq_comm]

theorem stops_cons : stops h (b :: l) = {b.stop h} ∪ stops h l := by
  ext x
  simp [eq_comm]

/-- A block joined with the next takes away the start of that one. -/
theorem starts_fuse (hpos : 0 < h) (hl : Ascending h (b :: l)) :
    starts (fuse h b l) = {b.addr} ∪ (starts l \ {b.stop h}) := by
  obtain ⟨hfirst, hrest⟩ := List.pairwise_cons.1 hl
  cases l with
  | nil => simp [fuse_nil, starts]
  | cons c l =>
    have hbehind : ∀ x ∈ starts l, c.addr < x := by
      rintro x ⟨d, hd, rfl⟩
      exact lt_of_lt_of_le (addr_lt_stop hpos c) ((List.pairwise_cons.1 hrest).1 d hd)
    have hle := hfirst c List.mem_cons_self
    rw [fuse_cons]
    split
    · rename_i htouch
      rw [starts_cons, starts_cons]
      ext x
      have hx := hbehind x
      simp only [Set.mem_union, Set.mem_singleton_iff, Set.mem_sdiff, htouch]
      refine or_congr_right ⟨fun hin => ⟨Or.inr hin, (hx hin).ne'⟩, ?_⟩
      rintro ⟨heq | hin, hne⟩
      · exact absurd heq hne
      · exact hin
    · rename_i hgap
      rw [starts_cons]
      congr 1
      refine (Set.sdiff_singleton_eq_self ?_).symm
      rintro ⟨d, hd, heq⟩
      rcases List.mem_cons.1 hd with rfl | hd
      · exact hgap heq.symm
      · have hlt := hbehind d.addr ⟨d, hd, rfl⟩
        omega

/-- And its own stop, which is the start of that one. -/
theorem stops_fuse (hpos : 0 < h) (hl : Ascending h (b :: l)) :
    stops h (fuse h b l) = stops h l ∪ ({b.stop h} \ starts l) := by
  obtain ⟨hfirst, hrest⟩ := List.pairwise_cons.1 hl
  cases l with
  | nil => simp [fuse_nil, starts, stops]
  | cons c l =>
    have hbehind : ∀ d ∈ l, c.addr < d.addr := fun d hd =>
      lt_of_lt_of_le (addr_lt_stop hpos c) ((List.pairwise_cons.1 hrest).1 d hd)
    have hle := hfirst c List.mem_cons_self
    rw [fuse_cons]
    split
    · rename_i htouch
      have hsame : (⟨b.addr, b.size + h + c.size⟩ : Blk).stop h = c.stop h := by
        unfold Blk.stop at htouch ⊢
        dsimp only
        omega
      have hempty : ({b.stop h} : Set ℕ) \ starts (c :: l) = ∅ :=
        Set.sdiff_eq_empty.2 (Set.singleton_subset_iff.2 ⟨c, List.mem_cons_self, htouch.symm⟩)
      rw [stops_cons, stops_cons, hsame, hempty, Set.union_empty]
    · rename_i hgap
      have hnot : b.stop h ∉ starts (c :: l) := by
        rintro ⟨d, hd, heq⟩
        rcases List.mem_cons.1 hd with rfl | hd
        · exact hgap heq.symm
        · have hlt := hbehind d hd
          omega
      rw [stops_cons, (Set.disjoint_singleton_left.2 hnot).sdiff_eq_left, Set.union_comm]

/-- Joined with the last block in front of it, a list loses the start that
is a stop there. -/
theorem starts_fuseLast (hpos : 0 < h) (hl : Ascending h (pre ++ l)) :
    starts (fuseLast h pre l) = starts pre ∪ (starts l \ stops h pre) := by
  rcases List.eq_nil_or_concat pre with rfl | ⟨pre, c, rfl⟩
  · simp [fuseLast_nil, starts, stops]
  · rw [List.concat_eq_append] at hl ⊢
    rw [List.append_assoc, List.singleton_append] at hl
    obtain ⟨-, hrest, hcross⟩ := List.pairwise_append.1 hl
    rw [fuseLast_concat, starts_append, starts_fuse hpos hrest, starts_append, starts_cons,
      stops_append, stops_cons]
    have hapart : starts l \ (stops h pre ∪ ({c.stop h} ∪ stops h [])) = starts l \ {c.stop h} := by
      ext x
      simp only [Set.mem_sdiff, Set.mem_union, Set.mem_singleton_iff]
      refine and_congr_right fun hx => not_congr ⟨?_, fun heq => Or.inr (Or.inl heq)⟩
      rintro (⟨d, hd, rfl⟩ | heq | ⟨d, hd, -⟩)
      · -- a block before the last stops too early
        obtain ⟨e, he, heq⟩ := hx
        have hdc := hcross d hd c List.mem_cons_self
        have hce := (List.pairwise_cons.1 hrest).1 e he
        have hlt := addr_lt_stop hpos c
        omega
      · exact heq
      · cases hd
    have hnil : starts ([] : List Blk) = ∅ := by simp [starts]
    rw [hapart, hnil, Set.union_empty, Set.union_assoc]

/-- And the list in front of it that stop. -/
theorem stops_fuseLast (hpos : 0 < h) (hl : Ascending h (pre ++ l)) :
    stops h (fuseLast h pre l) = (stops h pre \ starts l) ∪ stops h l := by
  rcases List.eq_nil_or_concat pre with rfl | ⟨pre, c, rfl⟩
  · simp [fuseLast_nil, starts, stops]
  · rw [List.concat_eq_append] at hl ⊢
    rw [List.append_assoc, List.singleton_append] at hl
    obtain ⟨-, hrest, hcross⟩ := List.pairwise_append.1 hl
    rw [fuseLast_concat, stops_append, stops_fuse hpos hrest, stops_append, stops_cons]
    have hapart : stops h pre \ starts l = stops h pre := by
      refine Disjoint.sdiff_eq_left (Set.disjoint_left.2 ?_)
      rintro x ⟨d, hd, rfl⟩ ⟨e, he, heq⟩
      have hdc := hcross d hd c List.mem_cons_self
      have hce := (List.pairwise_cons.1 hrest).1 e he
      have hlt := addr_lt_stop hpos c
      omega
    have hnil : stops h ([] : List Blk) = ∅ := by simp [stops]
    rw [hnil, Set.union_empty, Set.union_sdiff_distrib, hapart, Set.union_assoc,
      Set.union_comm (stops h l)]

/-! ## Releasing -/

theorem Ascending.fuse (hl : Ascending h (pre ++ b :: l)) : Ascending h (pre ++ fuse h b l) := by
  cases l with
  | nil => exact hl
  | cons c l =>
    rw [fuse_cons]
    split
    · rename_i htouch
      refine hl.join rfl ?_
      unfold Blk.stop at htouch ⊢
      dsimp only
      omega
    · exact hl

/-- **Releasing keeps the order.** -/
theorem Ascending.release (hpos : 0 < h) (hl : Ascending h l) (hb : ∀ c ∈ l, Apart h b c) :
    Ascending h (release h b l) := by
  have hfused := (hl.insert hpos hb).fuse
  unfold FreeList.release
  rcases List.eq_nil_or_concat (below b.addr l) with hnil | ⟨pre, c, hpre⟩
  · rw [hnil] at hfused ⊢
    exact hfused
  · rw [List.concat_eq_append] at hpre
    rw [hpre] at hfused ⊢
    rw [List.append_assoc] at hfused
    rw [fuseLast_concat]
    exact hfused.fuse

/-- A block apart from both parts is apart from the block they become. -/
theorem apart_fuse (hpos : 0 < h) (hdb : Apart h d b) (hd : ∀ c ∈ l, Apart h d c) :
    ∀ c ∈ fuse h b l, Apart h d c := by
  cases l with
  | nil =>
    intro c hc
    rwa [List.mem_singleton.1 hc]
  | cons e l =>
    have hde := hd e List.mem_cons_self
    intro c hc
    rw [fuse_cons] at hc
    split at hc
    · rename_i htouch
      rcases List.mem_cons.1 hc with rfl | hc
      · unfold Apart Blk.stop at *
        dsimp only
        omega
      · exact hd c (List.mem_cons_of_mem _ hc)
    · rcases List.mem_cons.1 hc with rfl | hc
      · exact hdb
      · exact hd c hc

/-- **And others apart.** -/
theorem apart_release (hpos : 0 < h) (hdb : Apart h d b) (hd : ∀ c ∈ l, Apart h d c) :
    ∀ c ∈ release h b l, Apart h d c := by
  rw [← below_append_above b.addr l] at hd
  have hfused := apart_fuse (l := above b.addr l) hpos hdb fun c hc =>
    hd c (List.mem_append_right _ hc)
  unfold release
  rcases List.eq_nil_or_concat (below b.addr l) with hnil | ⟨pre, e, hpre⟩
  · rw [hnil]
    exact hfused
  · rw [List.concat_eq_append] at hpre
    rw [hpre] at hd ⊢
    rw [fuseLast_concat]
    intro c hc
    rcases List.mem_append.1 hc with hc | hc
    · exact hd c (by simp [hc])
    · exact apart_fuse hpos (hd e (by simp)) hfused c hc

section Ends

variable (hpos : 0 < h) (hl : Ascending h l) (hb : ∀ c ∈ l, Apart h b c)
include hpos hl hb

/-- Where the ends of the blocks below and above a block lie. -/
theorem ends_around (x : ℕ) : (x ∈ starts (below b.addr l) → x < b.addr) ∧
    (x ∈ stops h (below b.addr l) → x ≤ b.addr) ∧ (x ∈ starts (above b.addr l) → b.stop h ≤ x) ∧
    (x ∈ stops h (above b.addr l) → b.stop h < x) := by
  obtain ⟨-, hpost, hcross⟩ := List.pairwise_append.1 (hl.insert hpos hb)
  obtain ⟨hfirst, -⟩ := List.pairwise_cons.1 hpost
  refine ⟨?_, ?_, ?_, ?_⟩ <;> rintro ⟨c, hc, rfl⟩
  · exact addr_lt_of_mem_below hc
  · exact hcross c hc b List.mem_cons_self
  · exact hfirst c hc
  · exact lt_of_le_of_lt (hfirst c hc) (addr_lt_stop hpos c)

/-- **The starts after a release**: the block's own, if no block stops there,
and the others but the one the block stops at. -/
theorem starts_release :
    starts (release h b l) = (starts l \ {b.stop h}) ∪ ({b.addr} \ stops h l) := by
  have horder := hl.insert hpos hb
  have hown := addr_lt_stop hpos b
  have hparts := below_append_above b.addr l
  obtain ⟨-, hpost, -⟩ := List.pairwise_append.1 horder
  unfold release
  rw [starts_fuseLast hpos horder.fuse, starts_fuse hpos hpost]
  conv_rhs => rw [← hparts, starts_append, stops_append]
  ext x
  obtain ⟨h1, h2, h3, h4⟩ := ends_around hpos hl hb x
  simp only [Set.mem_union, Set.mem_sdiff, Set.mem_singleton_iff]
  grind

/-- **And the stops.** -/
theorem stops_release :
    stops h (release h b l) = (stops h l \ {b.addr}) ∪ ({b.stop h} \ starts l) := by
  have horder := hl.insert hpos hb
  have hown := addr_lt_stop hpos b
  have hparts := below_append_above b.addr l
  obtain ⟨-, hpost, -⟩ := List.pairwise_append.1 horder
  unfold release
  rw [stops_fuseLast hpos horder.fuse, stops_fuse hpos hpost, starts_fuse hpos hpost]
  conv_rhs => rw [← hparts, starts_append, stops_append]
  ext x
  obtain ⟨h1, h2, h3, h4⟩ := ends_around hpos hl hb x
  simp only [Set.mem_union, Set.mem_sdiff, Set.mem_singleton_iff]
  grind

end Ends

/-- A block apart from others shares no end of the same kind with them. -/
theorem ends_not_mem (hpos : 0 < h) (hb : ∀ c ∈ l, Apart h b c) :
    b.addr ∉ starts l ∧ b.stop h ∉ stops h l := by
  have hown := addr_lt_stop hpos b
  constructor <;> rintro ⟨c, hc, heq⟩
  · have hbc := hb c hc
    have hlt := addr_lt_stop hpos c
    unfold Apart at hbc
    omega
  · have hbc := hb c hc
    have hlt := addr_lt_stop hpos c
    unfold Apart at hbc
    omega

/-- **Releases commute.** -/
theorem release_comm (hpos : 0 < h) (hl : Ascending h l) (hb : ∀ c ∈ l, Apart h b c)
    (hd : ∀ c ∈ l, Apart h d c) (hbd : Apart h b d) :
    release h d (release h b l) = release h b (release h d l) := by
  have hlb := hl.release hpos hb
  have hld := hl.release hpos hd
  have hdb := apart_release hpos hbd.symm hd
  have hbd' := apart_release hpos hbd hb
  obtain ⟨hbstart, hbstop⟩ := ends_not_mem hpos hb
  obtain ⟨hdstart, hdstop⟩ := ends_not_mem hpos hd
  have hends : b.addr ≠ d.addr ∧ b.stop h ≠ d.stop h := by
    have hownb := addr_lt_stop hpos b
    have hownd := addr_lt_stop hpos d
    unfold Apart at hbd
    omega
  refine Ascending.ext hpos (hlb.release hpos hdb) (hld.release hpos hbd') ?_ ?_
  · rw [starts_release hpos hlb hdb, starts_release hpos hld hbd', starts_release hpos hl hb,
      starts_release hpos hl hd, stops_release hpos hl hb, stops_release hpos hl hd]
    ext x
    simp only [Set.mem_union, Set.mem_sdiff, Set.mem_singleton_iff]
    grind
  · rw [stops_release hpos hlb hdb, stops_release hpos hld hbd', stops_release hpos hl hb,
      stops_release hpos hl hd, starts_release hpos hl hb, starts_release hpos hl hd]
    ext x
    simp only [Set.mem_union, Set.mem_sdiff, Set.mem_singleton_iff]
    grind

/-- The list with the blocks of `bs` released one after the other. -/
def releaseAll (h : ℕ) (l bs : List Blk) : List Blk := bs.foldl (fun l b => release h b l) l

/-- **The order of releases does not matter.** -/
theorem releaseAll_perm (hpos : 0 < h) (hp : bs.Perm bs') (hl : Ascending h l)
    (hbs : bs.Pairwise (Apart h)) (hapart : ∀ b ∈ bs, ∀ c ∈ l, Apart h b c) :
    releaseAll h l bs = releaseAll h l bs' := by
  induction hp generalizing l with
  | nil => rfl
  | cons b _ ih =>
    obtain ⟨hfirst, hrest⟩ := List.pairwise_cons.1 hbs
    have hb := hapart b List.mem_cons_self
    refine ih (hl.release hpos hb) hrest fun d hd => ?_
    exact apart_release hpos (hfirst d hd).symm (hapart d (List.mem_cons_of_mem _ hd))
  | swap b d bs =>
    obtain ⟨hfirst, -⟩ := List.pairwise_cons.1 hbs
    have hdb := hfirst b List.mem_cons_self
    unfold releaseAll
    rw [List.foldl_cons, List.foldl_cons, List.foldl_cons, List.foldl_cons,
      release_comm hpos hl (hapart d List.mem_cons_self) (hapart b (by simp)) hdb]
  | trans hp _ ih ih' =>
    rw [ih hl hbs hapart]
    exact ih' hl ((hp.pairwise_iff Or.symm).1 hbs) fun b hb => hapart b (hp.mem_iff.2 hb)

end FreeList
