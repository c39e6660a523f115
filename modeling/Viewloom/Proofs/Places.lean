import Mathlib.Data.List.Induction
import Mathlib.Data.List.TakeWhile
import Viewloom.Proofs.Agreement

/-!
# Where paths lead

Where a path leads is told without a look at any directory: by a number of steps up and then names.
A joined path leads on from where the path leads that it has been joined to, and steps are written as a
path that is read as the same steps.
-/

namespace Viewloom.Path

open Component (root current parent name)

variable {base p : Path} {c : Component} {cs : List Component} {k l : Nat} {ns ms : List Text}

/-! ## Places -/

/-- Where a path leads: along names from the root, or up from where one is and then along names. -/
inductive Place where
  | absolute (names : List Text)
  | relative (ups : Nat) (names : List Text)
  deriving DecidableEq

namespace Place

variable {d : Place}

def here : Place := relative 0 []

def names : Place → List Text
  | absolute names => names
  | relative _ names => names

/-- How many levels a place lies above the one from which it is named. -/
def ups : Place → Nat
  | absolute _ => 0
  | relative ups _ => ups

def isAbsolute : Place → Bool
  | absolute _ => true
  | relative _ _ => false

/-- So many steps up. No step leads up from the root. -/
def up (k : Nat) : Place → Place
  | absolute names => absolute (names.take (names.length - k))
  | relative ups names => relative (ups + (k - names.length)) (names.take (names.length - k))

def down (more : List Text) : Place → Place
  | absolute names => absolute (names ++ more)
  | relative ups names => relative ups (names ++ more)

/-- The place that one component of a path leads to. -/
def step (d : Place) : Component → Place
  | root => absolute []
  | current => d
  | parent => d.up 1
  | name n => d.down [n]

/-- Where components lead from a place. -/
def follow (d : Place) (cs : List Component) : Place := cs.foldl step d

theorem up_zero (d : Place) : d.up 0 = d := by
  cases d <;> simp [up]

theorem down_nil (d : Place) : d.down [] = d := by
  cases d <;> simp [down]

theorem down_down (d : Place) (ms ns : List Text) : (d.down ms).down ns = d.down (ms ++ ns) := by
  cases d <;> simp [down]

/-- Steps up add up. -/
theorem up_up (d : Place) (k l : Nat) : (d.up k).up l = d.up (k + l) := by
  have htake (names : List Text) :
      (names.take (names.length - k)).take ((names.take (names.length - k)).length - l) =
        names.take (names.length - (k + l)) := by
    rw [List.length_take, List.take_take]
    congr 1
    omega
  cases d with
  | absolute names => simp only [up, htake]
  | relative ups names =>
      have hups : ups + (k - names.length) + (l - (names.take (names.length - k)).length) =
          ups + (k + l - names.length) := by
        rw [List.length_take]
        omega
      simp only [up, htake, hups]

/-- Steps up take back names first. -/
theorem up_down (d : Place) (h : k ≤ ns.length) :
    (d.down ns).up k = d.down (ns.take (ns.length - k)) := by
  have htake (names : List Text) : (names ++ ns).take ((names ++ ns).length - k) =
      names ++ ns.take (ns.length - k) := by
    have hlength : (names ++ ns).length - k = names.length + (ns.length - k) := by
      rw [List.length_append]
      omega
    rw [hlength, List.take_length_add_append]
  cases d with
  | absolute names => simp only [up, down, htake]
  | relative ups names =>
      have hnone : k - (names ++ ns).length = 0 := by
        rw [List.length_append]
        omega
      simp only [up, down, htake, hnone, Nat.add_zero]

/-- Steps up undo steps down. -/
theorem up_down_of_le (d : Place) (h : ns.length ≤ k) : (d.down ns).up k = d.up (k - ns.length) := by
  have hsplit : k = ns.length + (k - ns.length) := by omega
  calc
    (d.down ns).up k = ((d.down ns).up ns.length).up (k - ns.length) := by rw [up_up, ← hsplit]
    _ = d.up (k - ns.length) := by
      rw [up_down d (Nat.le_refl _), Nat.sub_self, List.take_zero, down_nil]

theorem down_inj {d e : Place} : d.down ns = e.down ns ↔ d = e := by
  cases d <;> cases e <;> simp [down]

/-- A way can be followed in two parts. -/
theorem follow_append (d : Place) (cs cs' : List Component) :
    d.follow (cs ++ cs') = (d.follow cs).follow cs' := List.foldl_append

end Place

/-- A step up, or one to a directory. -/
def Component.IsMove : Component → Prop
  | parent => True
  | name n => n ≠ [] ∧ '/' ∉ n ∧ n ≠ ['.'] ∧ n ≠ text ".."
  | _ => False

namespace Place

/-- What steps come to: each one leads up, or to a name, or takes the last name back. -/
theorem exists_follow_eq (h : ∀ c ∈ cs, c.IsMove) : ∃ ups names,
    (∀ d : Place, d.follow cs = (d.up ups).down names) ∧ names.length ≤ cs.length ∧
      ups + cs.length = names.length + 2 * cs.count parent := by
  induction cs using List.reverseRecOn with
  | nil => exact ⟨0, [], fun d => by rw [up_zero, down_nil]; rfl, Nat.le_refl 0, rfl⟩
  | append_singleton cs c ih =>
      obtain ⟨ups, names, hfollow, hshort, hcount⟩ := ih fun c hc => h c (List.mem_append_left _ hc)
      have hstep (d : Place) : d.follow (cs ++ [c]) = ((d.up ups).down names).step c := by
        rw [follow_append, hfollow]
        rfl
      rw [List.length_append, List.length_singleton, List.count_append, List.count_singleton]
      cases c with
      | root => exact (h root (by simp)).elim
      | current => exact (h current (by simp)).elim
      | name n =>
          refine ⟨ups, names ++ [n], fun d => by rw [hstep, step, down_down], by simpa using hshort, ?_⟩
          simp
          omega
      | parent =>
          cases names with
          | nil =>
              refine ⟨ups + 1, [], fun d => by rw [hstep, step, down_nil, down_nil, up_up],
                Nat.zero_le _, ?_⟩
              simp at hcount ⊢
              omega
          | cons first more =>
              simp only [List.length_cons] at hshort hcount
              refine ⟨ups, (first :: more).take more.length, fun d => ?_, ?_, ?_⟩
              · rw [hstep, step, up_down _ (by simp)]
                rfl
              · simp
                omega
              · simp
                omega

/-- Moves lead up first and then down, from wherever they begin. -/
theorem follow_here (h : ∀ c ∈ cs, c.IsMove) : ∃ ups names, here.follow cs = relative ups names ∧
    ∀ d : Place, d.follow cs = (d.up ups).down names := by
  obtain ⟨ups, names, hfollow, -⟩ := exists_follow_eq h
  refine ⟨ups, names, ?_, hfollow⟩
  rw [hfollow]
  simp [here, up, down]

/-- Moves do not change whether a place is named from the root. -/
theorem isAbsolute_follow (h : ∀ c ∈ cs, c.IsMove) (d : Place) :
    (d.follow cs).isAbsolute = d.isAbsolute := by
  obtain ⟨ups, names, hfollow, -⟩ := exists_follow_eq h
  rw [hfollow]
  cases d <;> rfl

theorem follow_replicate (d : Place) (k : Nat) : d.follow (List.replicate k parent) = d.up k := by
  induction k generalizing d with
  | zero => exact (up_zero d).symm
  | succ k ih =>
      have hstep : d.follow (List.replicate (k + 1) parent) =
          (d.up 1).follow (List.replicate k parent) := rfl
      rw [hstep, ih, up_up, Nat.add_comm]

/-- Steps are taken back one by one, but a step up leads up once more. -/
theorem follow_back (h : ∀ c ∈ cs, c.IsMove) (d : Place) :
    (d.follow cs).follow (List.replicate cs.length parent) = d.up (2 * cs.count parent) := by
  obtain ⟨ups, names, hfollow, hshort, hcount⟩ := exists_follow_eq h
  have hups : ups + (cs.length - names.length) = 2 * cs.count parent := by omega
  rw [follow_replicate, hfollow, up_down_of_le _ hshort, up_up, hups]

/-- More steps up make a difference, unless all of them end at the root. -/
theorem up_add_eq_iff (d : Place) (k l : Nat) :
    d.up (k + l) = d.up l ↔ k = 0 ∨ d.isAbsolute = true ∧ d.names.length ≤ l := by
  have htake (names : List Text) :
      names.take (names.length - (k + l)) = names.take (names.length - l) ↔
        k = 0 ∨ names.length ≤ l := by
    constructor
    · intro heq
      have hlength := congrArg List.length heq
      rw [List.length_take, List.length_take] at hlength
      omega
    · rintro (rfl | hle)
      · rw [Nat.zero_add]
      · rw [Nat.sub_eq_zero_of_le hle, Nat.sub_eq_zero_of_le (by omega)]
  cases d with
  | absolute names => simp [up, Place.isAbsolute, Place.names, htake]
  | relative ups names =>
      simp only [up, Place.isAbsolute, relative.injEq, htake, Bool.false_eq_true, false_and, or_false]
      constructor
      · rintro ⟨hups, rfl | hle⟩
        · rfl
        · omega
      · rintro rfl
        simp

end Place

/-! ## Steps of a path -/

/-- The steps of a path, but for where it begins. -/
def moves (p : Path) : List Component := p.pieces.map Component.ofPiece

/-- Where a path begins. -/
def origin (p : Path) : Place := if p.isAbsolute then .absolute [] else .here

/-- Where a path leads. -/
def place (p : Path) : Place := Place.here.follow p.components

/-- A path leads where its moves lead from its origin. -/
theorem place_eq (p : Path) : p.place = p.origin.follow p.moves := by
  have hmoves (d : Place) : d.follow p.moves = p.moves.foldl Place.step d := rfl
  rw [place, components, Place.follow_append, hmoves, origin]
  split
  · rfl
  split <;> rfl

theorem isMove_of_mem_moves (h : c ∈ p.moves) : c.IsMove := by
  obtain ⟨piece, hpiece, rfl⟩ := List.mem_map.1 h
  obtain ⟨hne, hslash⟩ := FileTree.slash_not_mem_of_mem_pieces hpiece
  have hpoint : piece ≠ ['.'] := by
    have hkept := (List.mem_filter.1 hpiece).2
    simp only [Bool.and_eq_true, bne_iff_ne] at hkept
    exact hkept.2
  rw [Component.ofPiece, if_neg hpoint]
  split
  · trivial
  · next hparent => exact ⟨hne, hslash, hpoint, hparent⟩

/-- A step stands for itself. -/
structure Component.IsSpelled (c : Component) : Prop where
  ne_nil : c.toText ≠ []
  slash : '/' ∉ c.toText
  point : c.toText ≠ ['.']
  ofPiece : Component.ofPiece c.toText = c

theorem Component.IsMove.isSpelled (h : c.IsMove) : c.IsSpelled := by
  cases c with
  | root => exact h.elim
  | current => exact h.elim
  | parent => exact ⟨by decide, by decide, by decide, by decide⟩
  | name n =>
      obtain ⟨hne, hslash, hpoint, hparent⟩ := h
      exact ⟨hne, hslash, hpoint, by rw [toText, ofPiece, if_neg hparent, if_neg hpoint]⟩

theorem isAbsolute_join (h : p.isAbsolute = false) (base : Path) :
    (join base p).isAbsolute = base.isAbsolute := by
  cases base with
  | nil => rw [join, if_pos (by simp), h]; rfl
  | cons d base =>
      rw [join, if_neg (by simp [h])]
      split <;> rfl

theorem pieces_append_slash (s t : Text) : pieces (s ++ '/' :: t) = pieces s ++ pieces t := by
  rw [pieces, List.splitOnP_append_cons _ _ (by rfl), List.filter_append]
  rfl

/-- The pieces of a path behind a directory are those of both. -/
theorem pieces_join (h : p.isAbsolute = false) (base : Path) :
    (join base p).pieces = base.pieces ++ p.pieces := by
  by_cases hbase : base = []
  · rw [hbase, join, if_pos (by simp)]
    rfl
  · rw [join, if_neg (by simp [h, hbase])]
    split
    · next hlast =>
        obtain ⟨s, rfl⟩ := List.getLast?_eq_some_iff.1 (beq_iff_eq.1 hlast)
        have hnone : pieces (s ++ ['/']) = pieces s := by
          rw [pieces_append_slash]
          exact List.append_nil _
        rw [List.append_assoc, List.singleton_append, pieces_append_slash, hnone]
    · exact pieces_append_slash base p

/-- The moves of a path behind a directory are those of both. -/
theorem moves_join (h : p.isAbsolute = false) (base : Path) :
    (join base p).moves = base.moves ++ p.moves := by
  rw [moves, pieces_join h, List.map_append]
  rfl

/-- A relative path leads on from where the path leads that it has been joined to. -/
theorem place_join (h : p.isAbsolute = false) (base : Path) :
    (join base p).place = base.place.follow p.moves := by
  rw [place_eq, place_eq, moves_join h, Place.follow_append, origin, isAbsolute_join h, origin]

/-! ## Paths of steps -/

theorem ofComponents_concat (cs : List Component) (c : Component) :
    ofComponents (cs ++ [c]) = join (ofComponents cs) c.toText := List.foldl_concat ..

/-- Moves are written as a path that is not absolute. -/
theorem isAbsolute_ofComponents (h : ∀ c ∈ cs, c.IsMove) : (ofComponents cs).isAbsolute = false := by
  induction cs using List.reverseRecOn with
  | nil => rfl
  | append_singleton cs c ih =>
      have hc := (h c (by simp)).isSpelled
      rw [ofComponents_concat, isAbsolute_join (isAbsolute_eq_false hc.slash)]
      exact ih fun c hc => h c (List.mem_append_left _ hc)

/-- Moves are read again from the path they are written as. -/
theorem moves_ofComponents (h : ∀ c ∈ cs, c.IsMove) : (ofComponents cs).moves = cs := by
  induction cs using List.reverseRecOn with
  | nil => rfl
  | append_singleton cs c ih =>
      have hc := (h c (by simp)).isSpelled
      have hpieces : pieces c.toText = [c.toText] := by
        rw [pieces, splitOnP_of_slash_not_mem hc.slash]
        simp [hc.ne_nil, hc.point]
      rw [ofComponents_concat, moves_join (isAbsolute_eq_false hc.slash),
        ih fun c hc => h c (List.mem_append_left _ hc), moves, hpieces, List.map_singleton, hc.ofPiece]

/-- The first piece of a path, which is empty if it is absolute. -/
def firstPiece (p : Path) : Text := p.takeWhile (· != '/')

theorem firstPiece_append_slash (s t : Text) : firstPiece (s ++ '/' :: t) = firstPiece s := by
  induction s with
  | nil => rfl
  | cons d s ih =>
      rw [firstPiece, firstPiece] at ih
      rw [firstPiece, firstPiece, List.cons_append, List.takeWhile_cons, List.takeWhile_cons, ih]

/-- A path behind a directory begins as the directory does. -/
theorem firstPiece_join (h : p.isAbsolute = false) (hbase : base ≠ []) :
    firstPiece (join base p) = firstPiece base := by
  rw [join, if_neg (by simp [h, hbase])]
  split
  · next hlast =>
      obtain ⟨s, rfl⟩ := List.getLast?_eq_some_iff.1 (beq_iff_eq.1 hlast)
      rw [List.append_assoc, List.singleton_append, firstPiece_append_slash, firstPiece_append_slash]
  · exact firstPiece_append_slash base p

theorem firstPiece_of_isSpelled (h : c.IsSpelled) : firstPiece c.toText = c.toText := by
  refine List.takeWhile_eq_self_iff.2 fun d hd => bne_iff_ne.2 ?_
  rintro rfl
  exact h.slash hd

/-- A path of steps begins with the first one. -/
theorem firstPiece_ofComponents (h : ∀ e ∈ c :: cs, e.IsMove) :
    firstPiece (ofComponents (c :: cs)) = c.toText := by
  have hc := (h c List.mem_cons_self).isSpelled
  induction cs using List.reverseRecOn with
  | nil =>
      have hone : ofComponents [c] = c.toText := if_pos (by simp)
      rw [hone, firstPiece_of_isSpelled hc]
  | append_singleton cs e ih =>
      have he := (h e (by simp)).isSpelled
      have hfirst := ih fun e he => h e (by simpa using (List.mem_cons.1 he).imp_right .inl)
      have hne : ofComponents (c :: cs) ≠ [] := by
        intro hnil
        rw [hnil] at hfirst
        exact hc.ne_nil hfirst.symm
      rw [← List.cons_append, ofComponents_concat, firstPiece_join (isAbsolute_eq_false he.slash) hne,
        hfirst]

end Viewloom.Path
