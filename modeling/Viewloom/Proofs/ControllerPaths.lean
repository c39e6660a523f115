import Viewloom.Proofs.Places
import Viewloom.Site

/-!
# The way to the controllers

The modules of the views name the directory of the controllers by the way that leads there from their
own directory. Behind what both paths have in common each step of the views is taken back by one step up,
also where it has been a step up itself. A way that begins with a hidden directory is taken for a relative
path.
-/

namespace Viewloom.Path

open Component (root current parent name)

variable {p views controllers : Path} {c : Component}

/-! ## Partings -/

/-- Two lists of steps, cut where they part. -/
structure Parting where
  shared : List Component
  back : List Component
  forth : List Component

/-- Cuts the steps to one place and those to another one where they part. -/
def part : List Component → List Component → Parting
  | b :: base, c :: target =>
    if b = c then ⟨b :: (part base target).shared, (part base target).back, (part base target).forth⟩
    else ⟨[], b :: base, c :: target⟩
  | base, target => ⟨[], base, target⟩

namespace Parting

/-- Whether the way back begins with a step up, which cannot be undone. -/
def isLost (q : Parting) : Bool := q.back.head? == some parent && !q.forth.isEmpty

/-- One step up for each step there has been, and then the steps to the other place. -/
def route (q : Parting) : List Component := List.replicate q.back.length parent ++ q.forth

end Parting

/-- Two ways part once: both begin with what they share. -/
theorem shared_append (base target : List Component) :
    (part base target).shared ++ (part base target).back = base ∧
      (part base target).shared ++ (part base target).forth = target := by
  induction base, target using part.induct with
  | case1 base b target ih =>
      rw [part, if_pos rfl]
      exact ⟨congrArg (b :: ·) ih.1, congrArg (b :: ·) ih.2⟩
  | case2 b base c target hne =>
      rw [part, if_neg hne]
      exact ⟨rfl, rfl⟩
  | case3 base target hshort =>
      rw [part]
      · exact ⟨rfl, rfl⟩
      · exact hshort

/-- The way back from a directory is as many steps up as it has names. -/
theorem way_false_nil (base : List Component) :
    Viewloom.Path.way false [] base = some (List.replicate base.length parent) := by
  induction base with
  | nil => rfl
  | cons b base ih =>
      rw [Viewloom.Path.way, ih, Option.map_some, List.length_cons, List.replicate_succ]

/-- The way to a place goes back to where the steps part. -/
theorem way_eq (base target : List Component) (h : current ∉ base) :
    Viewloom.Path.way true target base =
      if (part base target).isLost then none else some (part base target).route := by
  induction base, target using part.induct with
  | case1 base b target ih =>
      rw [List.mem_cons, not_or] at h
      rw [Viewloom.Path.way, if_pos ⟨rfl, rfl⟩, ih h.2, part, if_pos rfl]
      rfl
  | case2 b base c target hne =>
      rw [List.mem_cons, not_or] at h
      rw [Viewloom.Path.way, if_neg fun heq => hne heq.2.symm, if_neg (Ne.symm h.1), part, if_neg hne]
      by_cases hb : b = parent
      · simp [hb, Parting.isLost]
      · simp [hb, Parting.isLost, Parting.route, List.map_const', List.replicate_succ]
  | case3 base target hshort =>
      rw [part]
      · cases base with
        | nil => cases target <;> rfl
        | cons b base =>
            cases target with
            | nil =>
                rw [Viewloom.Path.way, way_false_nil]
                simp [Parting.isLost, Parting.route, List.replicate_succ]
            | cons c target => exact (hshort b base c target rfl rfl).elim
      · exact hshort

/-! ## The form of required paths -/

/-- A path that is required as a file, and not as a package. -/
def IsRequirable (p : Path) : Prop :=
  p = ['.'] ∨ p = text ".." ∨ text "./" <+: p ∨ text "../" <+: p ∨ ['/'] <+: p

/-- Whether a piece of a path is the name of a hidden file. -/
def isHidden (piece : Text) : Bool := piece.head? == some '.' && piece != ['.'] && piece != text ".."

/-- A path in the form in which it is required. -/
def required (p : Path) : Path :=
  if p = [] then ['.'] else if p.head? = some '.' ∨ p.head? = some '/' then p else text "./" ++ p

/-- A path is requirable as it is if its first piece is empty or a step that is not hidden. -/
theorem isRequirable_cons_point_iff (p : Path) :
    IsRequirable ('.' :: p) ↔ isHidden (firstPiece ('.' :: p)) = false := by
  have hhere : text "./" = ['.', '/'] := rfl
  have habove : text ".." = ['.', '.'] := rfl
  have hbehind : text "../" = ['.', '.', '/'] := rfl
  rw [IsRequirable, hhere, habove, hbehind]
  cases p with
  | nil => simp [firstPiece, isHidden]
  | cons d p =>
      by_cases hslash : d = '/'
      · simp [hslash, firstPiece, isHidden]
      by_cases hpoint : d = '.'
      · cases p with
        | nil => simp [hpoint, firstPiece, isHidden, habove]
        | cons e p =>
            by_cases hend : e = '/'
            · simp [hpoint, hend, firstPiece, isHidden, habove]
            · simp [hpoint, hend, Ne.symm hend, firstPiece, isHidden, habove]
      · simp [hslash, Ne.symm hslash, hpoint, Ne.symm hpoint, firstPiece, isHidden, habove]

/-- A path that begins with a hidden directory is not brought into the form of a required file. -/
theorem isRequirable_required_iff (p : Path) :
    IsRequirable (required p) ↔ isHidden (firstPiece p) = false := by
  cases p with
  | nil => exact iff_of_true (.inl rfl) rfl
  | cons d p =>
      rw [required, if_neg (by simp)]
      by_cases hpoint : d = '.'
      · rw [hpoint, if_pos (by simp)]
        exact isRequirable_cons_point_iff p
      by_cases hslash : d = '/'
      · rw [hslash, if_pos (by simp)]
        exact iff_of_true (.inr (.inr (.inr (.inr (List.prefix_append ['/'] p))))) rfl
      · rw [if_neg (by simp [hpoint, hslash])]
        refine iff_of_true (.inr (.inr (.inl (List.prefix_append ..)))) ?_
        simp [firstPiece, isHidden, hslash, hpoint]

theorem isAbsolute_required (p : Path) : (required p).isAbsolute = p.isAbsolute := by
  cases p with
  | nil => rfl
  | cons d p =>
      rw [required, if_neg (by simp)]
      split
      · rfl
      · next hd =>
          have hslash : d ≠ '/' := fun heq => hd (.inr (congrArg some heq))
          simp [isAbsolute, hslash, show text "./" = ['.', '/'] from rfl]

theorem moves_required (p : Path) : (required p).moves = p.moves := by
  rw [required]
  split
  · next hp => rw [hp]; rfl
  split
  · rfl
  · have hpoint : text "./" ++ p = ['.'] ++ '/' :: p := rfl
    rw [moves, hpoint, pieces_append_slash]
    rfl

/-- A path that can be required leads to the same place. -/
theorem place_required (p : Path) : (required p).place = p.place := by
  rw [place_eq, place_eq, moves_required, origin, isAbsolute_required, origin]

/-! ## Finding the controllers -/

/-- Where the steps to the directory of the views and those to the controllers part. -/
def parting (views controllers : Path) : Parting := part views.moves controllers.moves

/-- The way from the views to the controllers, or the path of the controllers if there is none. -/
def wayTo (views controllers : Path) : Path := (relative? controllers views).getD controllers

/-- The controllers are required as files, and from the directory of the views they are found where they
are. -/
structure Resolves (views controllers : Path) : Prop where
  isRequirable : IsRequirable (Site.relativeControllersDir views controllers)
  place_eq : (join views (Site.relativeControllersDir views controllers)).place = controllers.place

/-- When the controllers are found. -/
inductive Finds (views controllers : Path) : Prop where
  /-- Where the steps part, those of the views lead down, and those to the controllers into no hidden
  directory if there are no others. -/
  | down (hback : parent ∉ (parting views controllers).back)
      (hshown : (parting views controllers).back = [] →
        ∀ c ∈ (parting views controllers).forth.head?, isHidden c.toText = false)
  /-- The steps up that are too many end at the root. -/
  | root (habsolute : controllers.isAbsolute = true) (hback : parent ∈ (parting views controllers).back)
      (hups : (views.origin.follow (parting views controllers).shared).names.length ≤
        (Place.here.follow (parting views controllers).forth).ups)
  /-- The path of the controllers is kept. -/
  | kept (habsolute : controllers.isAbsolute = true) (hlost : (parting views controllers).isLost = true)
  /-- The path of the controllers is kept, and it leads out of the directory of the views as far as that is
  away. -/
  | undone (habsolute : controllers.isAbsolute = false)
      (hlost : (parting views controllers).isLost = true)
      (hshown : isHidden (firstPiece controllers) = false)
      (haway : views.place.names.length = views.place.ups) (hups : views.place.ups ≤ controllers.place.ups)

/-- A directory of controllers is found exactly if its path can be required and leads there from the
views. -/
theorem resolves_iff_and : Resolves views controllers ↔
    IsRequirable (Site.relativeControllersDir views controllers) ∧
      (join views (Site.relativeControllersDir views controllers)).place = controllers.place :=
  ⟨fun h => ⟨h.isRequirable, h.place_eq⟩, fun h => ⟨h.1, h.2⟩⟩

theorem dropPoint_components (p : Path) :
    dropPoint p.components = (if p.isAbsolute then [root] else []) ++ p.moves := by
  rw [components]
  split
  · rfl
  split
  · rfl
  · cases hmoves : p.moves with
    | nil =>
        rw [moves] at hmoves
        rw [hmoves]
        rfl
    | cons c cs =>
        have hc : c ≠ current := by
          rintro rfl
          exact isMove_of_mem_moves (p := p) (hmoves ▸ List.mem_cons_self)
        rw [moves] at hmoves
        rw [hmoves]
        cases c <;> first | rfl | exact absurd rfl hc

/-- The relative path is the route back and forth, unless it would have to undo a step up. -/
theorem relative?_eq (h : views.isAbsolute = controllers.isAbsolute) :
    relative? controllers views = if (parting views controllers).isLost then none
      else some (ofComponents (parting views controllers).route) := by
  have hcurrent : current ∉ views.moves := fun hmem => isMove_of_mem_moves hmem
  have hway : Viewloom.Path.way true (dropPoint controllers.components) (dropPoint views.components) =
      Viewloom.Path.way true controllers.moves views.moves := by
    rw [dropPoint_components, dropPoint_components, h]
    split
    · exact if_pos ⟨rfl, rfl⟩
    · rfl
  rw [relative?, h, if_neg (by simp), hway, way_eq _ _ hcurrent, parting]
  split <;> rfl

/-- A route consists of steps up and of steps of its target. -/
theorem mem_route {c : Component} (h : c ∈ (parting views controllers).route) :
    c = parent ∨ c ∈ controllers.moves := by
  rcases List.mem_append.1 h with h | h
  · exact .inl (List.eq_of_mem_replicate h)
  · rw [← (shared_append views.moves controllers.moves).2]
    exact .inr (List.mem_append_right _ h)

theorem isMove_of_mem_route {c : Component} (h : c ∈ (parting views controllers).route) :
    c.IsMove := by
  rcases mem_route h with rfl | h
  · trivial
  · exact isMove_of_mem_moves h

/-- What the modules of the views are given as the directory of the controllers. -/
theorem relativeControllersDir_eq (h : views.isAbsolute = controllers.isAbsolute)
    (hbackslash : '\\' ∉ wayTo views controllers) :
    Site.relativeControllersDir views controllers =
      required (if (parting views controllers).isLost then controllers
        else ofComponents (parting views controllers).route) := by
  have hchars : ∀ c ∈ wayTo views controllers, (if c = '\\' then '/' else c) = c := by
    intro c hc
    rw [if_neg]
    rintro rfl
    exact hbackslash hc
  calc
    Site.relativeControllersDir views controllers =
        required ((wayTo views controllers).map fun c => if c = '\\' then '/' else c) := rfl
    _ = required (wayTo views controllers) := by rw [List.map_congr_left hchars, List.map_id']
    _ = _ := by
      rw [wayTo, relative?_eq h]
      split <;> rfl

/-- The first piece of the way where it is known. -/
theorem isHidden_firstPiece_route :
    isHidden (firstPiece (ofComponents (parting views controllers).route)) = false ↔
      ((parting views controllers).back = [] →
        ∀ c ∈ (parting views controllers).forth.head?, isHidden c.toText = false) := by
  have hmoves : ∀ c ∈ (parting views controllers).route, c.IsMove := fun c => isMove_of_mem_route
  generalize parting views controllers = q at *
  obtain ⟨shared, back, forth⟩ := q
  cases back with
  | nil =>
      have hroute : Parting.route ⟨shared, [], forth⟩ = forth := rfl
      rw [hroute] at hmoves ⊢
      cases forth with
      | nil => exact iff_of_true rfl (by simp)
      | cons c forth => simp [firstPiece_ofComponents hmoves]
  | cons b back =>
      have hroute : Parting.route ⟨shared, b :: back, forth⟩ =
          parent :: (List.replicate back.length parent ++ forth) := rfl
      rw [hroute] at hmoves ⊢
      rw [firstPiece_ofComponents hmoves]
      exact iff_of_true rfl (by simp)

/-- Where the way leads if there is one. -/
theorem place_route_iff (h : views.isAbsolute = controllers.isAbsolute) :
    (join views (required (ofComponents (parting views controllers).route))).place = controllers.place ↔
      parent ∉ (parting views controllers).back ∨ controllers.isAbsolute = true ∧
        (views.origin.follow (parting views controllers).shared).names.length ≤
          (Place.here.follow (parting views controllers).forth).ups := by
  have hroute : ∀ c ∈ (parting views controllers).route, c.IsMove := fun c => isMove_of_mem_route
  have hrelative := isAbsolute_ofComponents hroute
  rw [← isAbsolute_required] at hrelative
  obtain ⟨hviews, hcontrollers⟩ := shared_append views.moves controllers.moves
  have hshared : ∀ c ∈ (parting views controllers).shared, c.IsMove := fun c hc =>
    isMove_of_mem_moves (hviews ▸ List.mem_append_left _ hc)
  have hback : ∀ c ∈ (parting views controllers).back, c.IsMove := fun c hc =>
    isMove_of_mem_moves (hviews ▸ List.mem_append_right _ hc)
  have hforth : ∀ c ∈ (parting views controllers).forth, c.IsMove := fun c hc =>
    isMove_of_mem_moves (hcontrollers ▸ List.mem_append_right _ hc)
  have horigin : controllers.origin = views.origin := by rw [origin, origin, h]
  obtain ⟨ups, names, hhere, hfollow⟩ := Place.follow_here hforth
  have hbase : views.origin.follow views.moves =
      (views.origin.follow (parting views controllers).shared).follow
        (parting views controllers).back := by
    rw [← Place.follow_append]
    exact congrArg views.origin.follow hviews.symm
  -- Both places are reached from where the paths part: the one goes back up as often as the other
  -- path has gone, and every step back that the first path has made itself counts twice.
  have hthere : (join views (required (ofComponents (parting views controllers).route))).place =
      ((views.origin.follow (parting views controllers).shared).up
        (2 * (parting views controllers).back.count parent + ups)).down names := by
    rw [place_join hrelative, moves_required, moves_ofComponents hroute, place_eq, hbase, Parting.route,
      Place.follow_append, Place.follow_back hback, hfollow, Place.up_up]
  have hplace : controllers.place =
      ((views.origin.follow (parting views controllers).shared).up ups).down names := by
    rw [place_eq, horigin, ← hfollow, ← Place.follow_append]
    exact congrArg views.origin.follow hcontrollers.symm
  have habsolute : (views.origin.follow (parting views controllers).shared).isAbsolute =
      controllers.isAbsolute := by
    rw [Place.isAbsolute_follow hshared, ← horigin, origin]
    cases controllers.isAbsolute <;> rfl
  have hcount : 2 * (parting views controllers).back.count parent = 0 ↔
      parent ∉ (parting views controllers).back := by
    rw [← List.count_eq_zero]
    omega
  rw [hthere, hplace, Place.down_inj, Place.up_add_eq_iff, habsolute, hcount, hhere]
  rfl

/-- Where a relative path leads that is kept. -/
theorem place_kept_iff (hviews : views.isAbsolute = false) (hcontrollers : controllers.isAbsolute = false) :
    (join views (required controllers)).place = controllers.place ↔
      views.place.names.length = views.place.ups ∧ views.place.ups ≤ controllers.place.ups := by
  have hrelative := hcontrollers
  rw [← isAbsolute_required] at hrelative
  obtain ⟨i, ms, hbase, -⟩ := Place.follow_here fun c => isMove_of_mem_moves (p := views) (c := c)
  obtain ⟨j, ns, hplace, hfollow⟩ :=
    Place.follow_here fun c => isMove_of_mem_moves (p := controllers) (c := c)
  have hhere {p : Path} (hp : p.isAbsolute = false) : p.place = Place.here.follow p.moves := by
    rw [place_eq, origin, hp]
    rfl
  rw [place_join hrelative, moves_required, hhere hviews, hhere hcontrollers, hfollow, hbase, hplace]
  simp only [Place.up, Place.down, Place.names, Place.ups, Place.relative.injEq,
    List.append_left_eq_self, List.take_eq_nil_iff]
  constructor
  · rintro ⟨hups, hnames | rfl⟩
    · omega
    · rw [List.length_nil] at hups ⊢
      omega
  · rintro ⟨rfl, hups⟩
    omega

/-- A way is lost only if a step up would have to be undone. -/
theorem parent_mem_of_isLost {q : Parting} (h : q.isLost = true) : parent ∈ q.back := by
  simp only [Parting.isLost, Bool.and_eq_true, beq_iff_eq] at h
  exact List.mem_of_head? h.1

/-- If there is no way, the path of the controllers is kept as it is. -/
theorem resolves_kept_iff (h : views.isAbsolute = controllers.isAbsolute)
    (hdirectory : Site.relativeControllersDir views controllers = required controllers) :
    Resolves views controllers ↔ controllers.isAbsolute = true ∨
      isHidden (firstPiece controllers) = false ∧
        views.place.names.length = views.place.ups ∧ views.place.ups ≤ controllers.place.ups := by
  rw [resolves_iff_and, hdirectory, isRequirable_required_iff]
  cases habsolute : controllers.isAbsolute with
  | true =>
      have hfirst : isHidden (firstPiece controllers) = false := by
        obtain ⟨s, rfl⟩ := List.head?_eq_some_iff.1 (beq_iff_eq.1 habsolute)
        rfl
      have hjoin : join views (required controllers) = required controllers := by
        rw [join, isAbsolute_required, habsolute]
        rfl
      exact iff_of_true ⟨hfirst, by rw [hjoin, place_required]⟩ (.inl rfl)
  | false => simp [place_kept_iff (h.trans habsolute) habsolute]

/-- The controllers are found exactly in these cases, unless a backslash on the way is written as a slash. -/
theorem resolves_iff (h : views.isAbsolute = controllers.isAbsolute)
    (hbackslash : '\\' ∉ wayTo views controllers) :
    Resolves views controllers ↔ Finds views controllers := by
  have hdirectory := relativeControllersDir_eq h hbackslash
  cases hlost : (parting views controllers).isLost with
  | true =>
      have hup := parent_mem_of_isLost hlost
      rw [hlost, if_pos rfl] at hdirectory
      rw [resolves_kept_iff h hdirectory]
      constructor
      · intro hresolves
        cases habsolute : controllers.isAbsolute with
        | true => exact .kept habsolute hlost
        | false =>
            rw [habsolute] at hresolves
            obtain ⟨hshown, haway, hups⟩ := hresolves.resolve_left (by simp)
            exact .undone habsolute hlost hshown haway hups
      · intro hfinds
        cases hfinds with
        | down hback _ => exact absurd hup hback
        | root habsolute _ _ => exact .inl habsolute
        | kept habsolute _ => exact .inl habsolute
        | undone _ _ hshown haway hups => exact .inr ⟨hshown, haway, hups⟩
  | false =>
      rw [hlost, if_neg (by simp)] at hdirectory
      rw [resolves_iff_and, hdirectory, isRequirable_required_iff, isHidden_firstPiece_route,
        place_route_iff h]
      constructor
      · rintro ⟨hshown, hplace⟩
        by_cases hback : parent ∈ (parting views controllers).back
        · obtain ⟨habsolute, hups⟩ := hplace.resolve_left (not_not.2 hback)
          exact .root habsolute hback hups
        · exact .down hback hshown
      · intro hfinds
        cases hfinds with
        | down hback hshown => exact ⟨hshown, .inl hback⟩
        | root habsolute hback hups =>
            exact ⟨fun hnil => absurd hback (by simp [hnil]), .inr ⟨habsolute, hups⟩⟩
        | kept _ h => simp [hlost] at h
        | undone _ h _ _ _ => simp [hlost] at h

/-- The controllers beside the views are found, but not those in a hidden directory, and not those above
views that lead up themselves. -/
theorem resolves_iff_siblings : Resolves (text "src/views") (text "./src/controllers") ∧
    ¬ Resolves (text "a") (text "a/.ctrl") ∧ ¬ Resolves (text "a/..") (text "a") := by
  have hbeside : Resolves (text "src/views") (text "./src/controllers") ↔
      Finds (text "src/views") (text "./src/controllers") := resolves_iff rfl (by decide)
  have hhidden : Resolves (text "a") (text "a/.ctrl") ↔ Finds (text "a") (text "a/.ctrl") :=
    resolves_iff rfl (by decide)
  have habove : Resolves (text "a/..") (text "a") ↔ Finds (text "a/..") (text "a") :=
    resolves_iff rfl (by decide)
  refine ⟨hbeside.2 (.down (by decide) (by decide)), fun h => ?_, fun h => ?_⟩
  · cases hhidden.1 h with
    | down _ hshown => exact absurd (hshown (by decide)) (by decide)
    | root habsolute _ _ => exact absurd habsolute (by decide)
    | kept habsolute _ => exact absurd habsolute (by decide)
    | undone _ hlost _ _ _ => exact absurd hlost (by decide)
  · cases habove.1 h with
    | down hback _ => exact absurd hback (by decide)
    | root habsolute _ _ => exact absurd habsolute (by decide)
    | kept habsolute _ => exact absurd habsolute (by decide)
    | undone _ hlost _ _ _ => exact absurd hlost (by decide)

end Viewloom.Path
