import Mathlib.Data.Finset.Card
import ScenePack.Proofs.Compiled.Names
import ScenePack.Proofs.Object.Run

/-!
# Listing the table of names

A run of recordings, with any names and positions, leaves each name with its first position. What a
table is listed as must not depend on how it keeps its pairs: `listing` sorts by position the pairs
in any order they may be kept in, and pairs of one position stay in that order. `entries` settles
such pairs by name, so it is one of these listings.

* `record` is a run of recordings, `FirstWith` what it says about a name, `recordings` the run that
  the pass over the materials is.

Results:
* `Holds.insert`, **`holds_record`**: after each recording, and so after a run, the pairs are the
  first recordings of the run, in its order.
* `Holds.lists`: what stands in any listing by position.
* **`listing_agree_iff`**: all listings are one iff no two names have one position, which is when
  positions ascend strictly (`ascends_iff`).
* `recordings_ascend`: the positions of materials ascend, as long as they fit a word.
* **`names_listed_by_first_position`**: runs, listings and the pass over the materials together.
-/

namespace ScenePack

namespace NameTable

/-! ## Runs of recordings -/

/-- Record names with their positions, one after another. -/
def record (t : NameTable) (calls : List (String × UInt32)) : NameTable :=
  calls.foldl (fun t (name, position) => t.insert name position) t

/-- Of the recordings of the name `n` in a run, the first one is with the position `p`. -/
def FirstWith (calls : List (String × UInt32)) (n : String) (p : UInt32) : Prop :=
  ∃ before after, calls = before ++ (n, p) :: after ∧ ∀ call ∈ before, call.1 ≠ n

variable {calls : List (String × UInt32)} {t : NameTable} {n : String} {p : UInt32}

theorem lookup_eq_some_iff_firstWith : calls.lookup n = some p ↔ FirstWith calls n p := by
  simp only [List.lookup_eq_some_iff, FirstWith, bne_iff_ne, ne_comm]

theorem lookup_eq_none_iff_not_mem : calls.lookup n = none ↔ n ∉ calls.map (·.1) := by
  simp only [List.lookup_eq_none_iff, bne_iff_ne, List.mem_map, not_exists, not_and, ne_comm]

/-- What a table holds behind a run of recordings. -/
structure Holds (t : NameTable) (calls : List (String × UInt32)) : Prop where
  /-- A name is given its first position. -/
  get?_eq : ∀ n, t.get? n = calls.lookup n
  /-- A name that stands among the pairs is given the position it stands with. -/
  consistent : t.Consistent
  /-- No name stands there twice. -/
  nodup : (t.pairs.map (·.1)).Nodup
  /-- The pairs are recordings, in the order of the run. -/
  sublist : t.pairs.Sublist calls

theorem holds_empty : empty.Holds [] where
  get?_eq _ := rfl
  consistent := consistent_empty
  nodup := List.nodup_nil
  sublist := List.Sublist.refl []

/-- **One recording.** -/
theorem Holds.insert (h : t.Holds calls) (name : String) (position : UInt32) :
    (t.insert name position).Holds (calls ++ [(name, position)]) where
  get?_eq n := by
    rw [get?_insert, h.get?_eq, List.lookup_append, lookup_singleton]
  consistent := h.consistent.insert name position
  nodup := by
    cases hname : t.get? name with
    | some p =>
      rw [insert_of_some hname]
      exact h.nodup
    | none =>
      rw [pairs_insert_of_none hname, List.map_append]
      exact List.nodup_append_comm.mp
        (List.nodup_cons.mpr ⟨lookup_eq_none_iff_not_mem.mp hname, h.nodup⟩)
  sublist := by
    cases hname : t.get? name with
    | some p =>
      rw [insert_of_some hname]
      exact h.sublist.trans (List.sublist_append_left _ _)
    | none =>
      rw [pairs_insert_of_none hname]
      exact h.sublist.append_right _

/-- **A run of recordings**, behind any other: what was recorded before grows with each step. -/
theorem Holds.record : ∀ {calls : List (String × UInt32)} {t : NameTable}
    (run : List (String × UInt32)), t.Holds calls → (t.record run).Holds (calls ++ run)
  | calls, _, [], h => by
    rw [List.append_nil]
    exact h
  | calls, _, (name, position) :: run, h => by
    have hrest := (h.insert name position).record run
    rw [List.append_assoc] at hrest
    exact hrest

/-- **What a table holds behind a run from the start.** -/
theorem holds_record (calls : List (String × UInt32)) : (empty.record calls).Holds calls :=
  holds_empty.record calls

namespace Holds

variable (h : t.Holds calls)
include h

theorem get?_eq_some_iff : t.get? n = some p ↔ FirstWith calls n p := by
  rw [h.get?_eq, lookup_eq_some_iff_firstWith]

/-- **The pairs are the first recordings.** -/
theorem mem_pairs_iff : (n, p) ∈ t.pairs ↔ FirstWith calls n p := by
  rw [← h.get?_eq_some_iff]
  constructor
  · exact h.consistent (n, p)
  · intro hget
    obtain ⟨before, after, hpairs, -⟩ := lookup_eq_some_iff_firstWith.mp hget
    rw [hpairs]
    exact List.mem_append_right _ List.mem_cons_self

/-- **The names are those of the run.** -/
theorem mem_names_iff : n ∈ t.pairs.map (·.1) ↔ n ∈ calls.map (·.1) := by
  rw [← not_iff_not, ← lookup_eq_none_iff_not_mem, ← lookup_eq_none_iff_not_mem, ← h.get?_eq]
  rfl

theorem size_eq : t.size = (calls.map (·.1)).toFinset.card := by
  have hnames : (calls.map (·.1)).toFinset = (t.pairs.map (·.1)).toFinset := by
    ext n
    rw [List.mem_toFinset, List.mem_toFinset, h.mem_names_iff]
  rw [hnames, List.toFinset_card_of_nodup h.nodup, List.length_map]
  rfl

theorem isEmpty_iff : t.isEmpty = true ↔ calls = [] := by
  rw [isEmpty, List.isEmpty_iff]
  constructor
  · intro hnil
    have hnone (n : String) : n ∉ calls.map (·.1) := by
      rw [← h.mem_names_iff, hnil]
      exact List.not_mem_nil
    exact List.map_eq_nil_iff.mp (List.eq_nil_iff_forall_not_mem.mpr hnone)
  · rintro rfl
    exact List.sublist_nil.mp h.sublist

end Holds

/-! ## Listings by position -/

/-- Pairs sorted by position; those of one position stay in the order in which they come. -/
def listing (order : List (String × UInt32)) : List (String × UInt32) :=
  order.mergeSort fun a b => a.2 ≤ b.2

theorem position_trans (a b c : String × UInt32) (hab : decide (a.2 ≤ b.2) = true)
    (hbc : decide (b.2 ≤ c.2) = true) : decide (a.2 ≤ c.2) = true :=
  decide_eq_true (UInt32.le_trans (of_decide_eq_true hab) (of_decide_eq_true hbc))

theorem position_total (a b : String × UInt32) :
    (decide (a.2 ≤ b.2) || decide (b.2 ≤ a.2)) = true := by
  rw [Bool.or_eq_true, decide_eq_true_eq, decide_eq_true_eq]
  exact UInt32.le_total a.2 b.2

theorem listing_perm (order : List (String × UInt32)) : (listing order).Perm order :=
  List.mergeSort_perm _ _

theorem pairwise_listing (order : List (String × UInt32)) :
    (listing order).Pairwise fun a b => a.2 ≤ b.2 :=
  (List.pairwise_mergeSort position_trans position_total order).imp of_decide_eq_true

theorem listedBefore_iff {a b : String × UInt32} :
    listedBefore a b = true ↔ a.2 < b.2 ∨ a.2 = b.2 ∧ a.1 ≤ b.1 := by
  simp only [listedBefore, Bool.or_eq_true, Bool.and_eq_true, decide_eq_true_eq]

theorem listedBefore_trans (a b c : String × UInt32) (hab : listedBefore a b = true)
    (hbc : listedBefore b c = true) : listedBefore a c = true := by
  rw [listedBefore_iff] at *
  rcases hab with hab | ⟨hab, hab'⟩
  · rcases hbc with hbc | ⟨hbc, -⟩
    · exact .inl (UInt32.lt_trans hab hbc)
    · exact .inl (hbc ▸ hab)
  · rcases hbc with hbc | ⟨hbc, hbc'⟩
    · exact .inl (hab ▸ hbc)
    · exact .inr ⟨hab.trans hbc, String.le_trans hab' hbc'⟩

theorem listedBefore_total (a b : String × UInt32) :
    (listedBefore a b || listedBefore b a) = true := by
  rw [Bool.or_eq_true, listedBefore_iff, listedBefore_iff]
  by_cases heq : a.2 = b.2
  · rcases String.le_total a.1 b.1 with hle | hle
    · exact .inl (.inr ⟨heq, hle⟩)
    · exact .inr (.inr ⟨heq.symm, hle⟩)
  · exact (UInt32.lt_or_lt_of_ne heq).imp .inl .inl

theorem entries_perm (t : NameTable) : t.entries.Perm t.pairs := List.mergeSort_perm _ _

theorem pairwise_entries (t : NameTable) : t.entries.Pairwise fun a b => a.2 ≤ b.2 := by
  refine (List.pairwise_mergeSort listedBefore_trans listedBefore_total t.pairs).imp fun h => ?_
  rcases listedBefore_iff.mp h with hlt | ⟨heq, -⟩
  · exact UInt32.le_of_lt hlt
  · exact UInt32.le_of_eq heq

/-- The listing that settles pairs of one position by name is one of all. -/
theorem listing_entries (t : NameTable) : listing t.entries = t.entries :=
  List.mergeSort_of_pairwise (t.pairwise_entries.imp decide_eq_true)

/-- A list of pairs that says what a run of recordings comes to. -/
structure Lists (l calls : List (String × UInt32)) : Prop where
  /-- No name stands there twice. -/
  nodup : (l.map (·.1)).Nodup
  /-- Each name of the run does, with its first position. -/
  mem_iff : ∀ n p, (n, p) ∈ l ↔ FirstWith calls n p
  /-- Positions never descend. -/
  ascending : l.Pairwise fun a b => a.2 ≤ b.2

/-- **What stands in any listing.** -/
theorem Holds.lists (h : t.Holds calls) {order : List (String × UInt32)}
    (horder : order.Perm t.pairs) : Lists (listing order) calls where
  nodup := (((listing_perm order).trans horder).map (·.1)).nodup_iff.mpr h.nodup
  mem_iff n p := by
    rw [((listing_perm order).trans horder).mem_iff, h.mem_pairs_iff]
  ascending := pairwise_listing order

/-! ## The order of a listing -/

/-- What stands in one order in a list without repetitions does not stand in the other. -/
theorem not_sublist_swap {α : Type} {l : List α} (hl : l.Nodup) {a b : α}
    (hab : [a, b].Sublist l) : ¬[b, a].Sublist l := by
  intro hba
  obtain ⟨l₁, l₂, rfl, ha, hb⟩ := List.cons_sublist_iff.mp hab
  obtain ⟨k₁, k₂, hk, hb', ha'⟩ := List.cons_sublist_iff.mp hba
  rw [List.singleton_sublist] at hb ha'
  have hdisjoint := List.disjoint_of_nodup_append hl
  -- one of the two cuts lies behind the other
  rcases List.append_eq_append_iff.mp hk with ⟨m, rfl, rfl⟩ | ⟨m, rfl, rfl⟩
  · exact hdisjoint ha (List.mem_append_right _ ha')
  · exact hdisjoint (List.mem_append_left _ hb') hb

/-- Positions that never descend ascend iff none stands there twice. -/
theorem ascends_iff {l : List (String × UInt32)} (hl : l.Pairwise fun a b => a.2 ≤ b.2) :
    l.Pairwise (fun a b => a.2 < b.2) ↔ (l.map (·.2)).Nodup := by
  rw [List.Nodup, List.pairwise_map]
  constructor
  · exact fun h => h.imp UInt32.ne_of_lt
  · exact fun h => hl.imp₂ (fun _ _ => UInt32.lt_of_le_of_ne) h

/-- **All listings are one iff no position is that of two pairs.** -/
theorem listing_agree_iff (hpairs : t.pairs.Nodup) :
    (∀ order : List (String × UInt32), order.Perm t.pairs → listing order = t.entries) ↔
      (t.pairs.map (·.2)).Nodup := by
  constructor
  · intro hagree
    rw [List.nodup_map_iff_inj_on hpairs]
    intro a ha b hb hposition
    by_contra hne
    -- sorting keeps the order of two pairs of one position, so the entries show both orders
    have hshown (x y : String × UInt32) (hx : x ∈ t.pairs) (hy : y ∈ t.pairs) (hxy : x ≠ y)
        (hle : x.2 ≤ y.2) : [x, y].Sublist t.entries := by
      have hy' : y ∈ t.pairs.erase x := (List.mem_erase_of_ne hxy.symm).mpr hy
      have horder : (x :: y :: (t.pairs.erase x).erase y).Perm t.pairs :=
        (((List.perm_cons_erase hy').symm).cons x).trans (List.perm_cons_erase hx).symm
      rw [← hagree _ horder]
      refine List.pair_sublist_mergeSort position_trans position_total (decide_eq_true hle) ?_
      exact ((List.nil_sublist _).cons_cons y).cons_cons x
    have hentries : t.entries.Nodup := t.entries_perm.nodup_iff.mpr hpairs
    exact not_sublist_swap hentries (hshown a b ha hb hne (UInt32.le_of_eq hposition))
      (hshown b a hb ha (Ne.symm hne) (UInt32.le_of_eq hposition.symm))
  · intro hpositions order horder
    have hperm : (listing order).Perm t.pairs := (listing_perm order).trans horder
    have hinj := List.inj_on_of_nodup_map hpositions
    refine List.Perm.eq_of_pairwise (fun a b ha hb hab hba => ?_) (pairwise_listing order)
      t.pairwise_entries (hperm.trans t.entries_perm.symm)
    exact hinj (hperm.mem_iff.mp ha) (t.entries_perm.mem_iff.mp hb) (UInt32.le_antisymm hab hba)

namespace Holds

variable (h : t.Holds calls)
include h

theorem nodup_pairs : t.pairs.Nodup := h.nodup.of_map _

/-- Each position is that of one pair iff no two names are first recorded with one. -/
theorem nodup_positions_iff :
    (t.pairs.map (·.2)).Nodup ↔
      ∀ n m p, FirstWith calls n p → FirstWith calls m p → n = m := by
  rw [List.nodup_map_iff_inj_on h.nodup_pairs]
  constructor
  · intro hinj n m p hn hm
    have hpair := hinj _ (h.mem_pairs_iff.mpr hn) _ (h.mem_pairs_iff.mpr hm) rfl
    exact congrArg Prod.fst hpair
  · rintro hname ⟨n, p⟩ hn ⟨m, q⟩ hm rfl
    rw [hname n m p (h.mem_pairs_iff.mp hn) (h.mem_pairs_iff.mp hm)]

/-- **Recordings whose positions ascend leave a position to one pair.** -/
theorem nodup_positions_of_ascending (hcalls : calls.Pairwise fun a b => a.2 < b.2) :
    (t.pairs.map (·.2)).Nodup := by
  have hpairs : t.pairs.Pairwise fun a b => a.2 < b.2 := hcalls.sublist h.sublist
  exact (ascends_iff (hpairs.imp UInt32.le_of_lt)).mp hpairs

end Holds

/-- A table answers for a run of recordings. -/
structure Answers (t : NameTable) (calls : List (String × UInt32)) : Prop where
  /-- A name has the position of its first recording. -/
  get?_eq_some_iff : ∀ n p, t.get? n = some p ↔ FirstWith calls n p
  get?_eq_none_iff : ∀ n, t.get? n = none ↔ ∀ call ∈ calls, call.1 ≠ n
  /-- There are as many names as differ in the run. -/
  size_eq : t.size = (calls.map (·.1)).toFinset.card
  isEmpty_iff : t.isEmpty = true ↔ calls = []
  entries : Lists t.entries calls
  /-- In whatever order the pairs are kept, they are listed as the run says. -/
  listings : ∀ order : List (String × UInt32), order.Perm t.pairs → Lists (listing order) calls
  /-- The listing is the same for all orders exactly if no two names have one position. -/
  listing_agree_iff :
    (∀ order : List (String × UInt32), order.Perm t.pairs → listing order = t.entries) ↔
      ∀ n m p, FirstWith calls n p → FirstWith calls m p → n = m
  /-- Then, and only then, positions ascend. -/
  ascends_iff : t.entries.Pairwise (fun a b => a.2 < b.2) ↔
    ∀ n m p, FirstWith calls n p → FirstWith calls m p → n = m

/-- **What a table holds is what it answers.** -/
theorem Holds.answers (h : t.Holds calls) : t.Answers calls where
  get?_eq_some_iff _ _ := h.get?_eq_some_iff
  get?_eq_none_iff n := by
    rw [h.get?_eq, List.lookup_eq_none_iff]
    simp only [bne_iff_ne, ne_comm]
  size_eq := h.size_eq
  isEmpty_iff := h.isEmpty_iff
  entries := by
    rw [← t.listing_entries]
    exact h.lists t.entries_perm
  listings _ horder := h.lists horder
  listing_agree_iff := by
    rw [NameTable.listing_agree_iff h.nodup_pairs, h.nodup_positions_iff]
  ascends_iff := by
    rw [NameTable.ascends_iff t.pairwise_entries, (t.entries_perm.map (·.2)).nodup_iff,
      h.nodup_positions_iff]

end NameTable

/-! ## The pass over the materials -/

namespace CompiledScene

open NameTable

/-- The recordings of a list of materials, whose first is at `position`. -/
def recordings (position : Nat) (ms : List Material) : List (String × UInt32) :=
  (ms.zipIdx position).map fun (m, i) => (m.name, UInt32.ofNat i)

/-- **The pass over the materials is a run of recordings.** -/
theorem nameMaterials_eq_record : ∀ (ms : List Material) (t : NameTable) (position : Nat),
    nameMaterials t position ms = t.record (recordings position ms)
  | [], _, _ => rfl
  | m :: ms, t, position => nameMaterials_eq_record ms (t.insert m.name _) (position + 1)

/-- Positions of materials ascend, as long as they fit a word. -/
theorem recordings_ascend {ms : List Material} (hlen : ms.length ≤ UInt32.size) :
    (recordings 0 ms).Pairwise fun a b => a.2 < b.2 := by
  have hpositions : (recordings 0 ms).map (·.2) = (List.range' 0 ms.length).map UInt32.ofNat := by
    rw [← List.zipIdx_map_snd, recordings, List.map_map, List.map_map]
    rfl
  rw [← List.pairwise_map, hpositions]
  refine pairwise_map_ofNat (fun k hk => ?_) List.pairwise_lt_range'
  obtain ⟨-, hk⟩ := List.mem_range'_1.mp hk
  omega

/-- **Names are listed by their first positions.** Whatever is recorded in whatever order, a table
answers for the first recording of each name, and lists each name once and by position. So it is
with the table of a description; there positions ascend, since they are counted up and fit a word,
and the listing is the same in whatever order the pairs are kept. -/
theorem names_listed_by_first_position :
    (∀ calls : List (String × UInt32), (empty.record calls).Answers calls) ∧
    (∀ d : SceneDescription,
      (ofDescription d).1.names = empty.record (recordings 0 d.materials)) ∧
    ∀ d : SceneDescription, d.materials.length ≤ UInt32.size →
      (ofDescription d).1.names.entries.Pairwise (fun a b => a.2 < b.2) ∧
      ∀ order : List (String × UInt32), order.Perm (ofDescription d).1.names.pairs →
        listing order = (ofDescription d).1.names.entries := by
  have hnames (d : SceneDescription) :
      (ofDescription d).1.names = empty.record (recordings 0 d.materials) :=
    nameMaterials_eq_record d.materials empty 0
  refine ⟨fun calls => (holds_record calls).answers, hnames, fun d hlen => ?_⟩
  rw [hnames]
  have hholds := holds_record (recordings 0 d.materials)
  have hpositions := hholds.nodup_positions_of_ascending (recordings_ascend hlen)
  constructor
  · exact hholds.answers.ascends_iff.mpr (hholds.nodup_positions_iff.mp hpositions)
  · exact (NameTable.listing_agree_iff hholds.nodup_pairs).mpr hpositions

/-- A scene with a name that comes back. -/
def shadowedScene : SceneDescription where
  info := .default
  camera := .default
  sky := .default
  render := .default
  materials := [⟨"lamp", .emissive, .none⟩, ⟨"ball", .metal, .none⟩, ⟨"lamp", .metal, .none⟩,
    ⟨"floor", .lambertian, .none⟩]
  objects := []

theorem names_listed_by_first_position_shadowed :
    [("a", 5), ("b", 5)].Perm (empty.record [("b", 5), ("a", 5), ("b", 1)]).pairs ∧
    Lists (listing [("a", 5), ("b", 5)]) [("b", 5), ("a", 5), ("b", 1)] ∧
    shadowedScene.materials.length ≤ UInt32.size ∧
    (ofDescription shadowedScene).1.names.entries.Pairwise (fun a b => a.2 < b.2) ∧
    [("floor", 3), ("ball", 1), ("lamp", 0)].Perm (ofDescription shadowedScene).1.names.pairs ∧
    listing [("floor", 3), ("ball", 1), ("lamp", 0)] =
      (ofDescription shadowedScene).1.names.entries := by
  have hkept : [("a", 5), ("b", 5)].Perm (empty.record [("b", 5), ("a", 5), ("b", 1)]).pairs := by
    decide
  have hlen : shadowedScene.materials.length ≤ UInt32.size := by decide
  have horder : [("floor", 3), ("ball", 1), ("lamp", 0)].Perm
      (ofDescription shadowedScene).1.names.pairs := by decide
  obtain ⟨hanswers, -, hlisted⟩ := names_listed_by_first_position
  obtain ⟨hascend, hagree⟩ := hlisted shadowedScene hlen
  exact ⟨hkept, (hanswers _).listings _ hkept, hlen, hascend, horder, hagree _ horder⟩

end CompiledScene

end ScenePack
