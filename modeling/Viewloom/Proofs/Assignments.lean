import Viewloom.Proofs.Emission
import Viewloom.Proofs.Entries

/-!
# Runs of assignments

A view that is given several sources in turn is always what the last good one of them compiles to. A
call that fails leaves no trace, and a blank source leaves nothing behind.
-/

namespace Viewloom.View

/-- A call of a run: its source, the view behind it, and the error that it has ended in. -/
structure Assignment where
  source : Text
  view : View
  error : Option Error

/-- The calls of a run that gives a view several sources in turn. -/
def assign (v : View) : List Text → List Assignment
  | [] => []
  | source :: sources =>
    ⟨source, (v.setMarkup source).1, (v.setMarkup source).2⟩ ::
      assign (v.setMarkup source).1 sources

/-- The source of the last call that has not failed, or else the one from before the calls. -/
def lastKept (source : Text) (calls : List Assignment) : Text :=
  calls.foldl (fun kept call => if call.error = none then call.source else kept) source

/-- The view behind the last call, or else the one from before the calls. -/
def viewBehind (v : View) (calls : List Assignment) : View :=
  calls.foldl (fun _ call => call.view) v

/-- What a call does in a run that has begun with a source and its view. -/
structure Assignment.Follows (label source : Text) (v : View) (before : List Assignment)
    (call : Assignment) : Prop where
  compiled : compile label (lastKept source (before ++ [call])) = .ok call.view
  error_iff : ∀ e, call.error = some e ↔ compile label call.source = .error e
  failed : call.error ≠ none → call.view = viewBehind v before
  blank : Text.isAllBlank call.source = true →
    call.error = none ∧ call.view = View.blank label v.names

variable {label source next : Text} {v : View}

/-- A view takes on what a source compiles to under its label, and a source that fails is as if it had
not been given. -/
theorem setMarkup_cases (h : compile label source = .ok v) (next : Text) :
    (∃ w, compile label next = .ok w ∧ v.setMarkup next = (w, none)) ∨
      ∃ e, compile label next = .error e ∧ v.setMarkup next = (v, some e) := by
  have hcompile : compile label next = ofSource v.label v.names next := by
    rw [compile, names_compile h, label_compile h]
  rw [hcompile, setMarkup]
  cases ofSource v.label v.names next with
  | ok w => exact .inl ⟨w, rfl, rfl⟩
  | error e => exact .inr ⟨e, rfl, rfl⟩

/-- Under a label that compiles, a blank source gives a view without anything. -/
theorem compile_of_isAllBlank (h : compile label source = .ok v)
    (hblank : Text.isAllBlank next = true) : compile label next = .ok (blank label v.names) := by
  rw [compile, names_compile h]
  exact if_pos hblank

/-- The first call of a run. -/
theorem follows_first (h : compile label source = .ok v) (next : Text) :
    Assignment.Follows label source v []
      ⟨next, (v.setMarkup next).1, (v.setMarkup next).2⟩ := by
  rcases setMarkup_cases h next with ⟨w, hw, hset⟩ | ⟨e, he, hset⟩
  · rw [hset]
    refine ⟨hw, by simp [hw], fun hfailed => absurd rfl hfailed, fun hblank => ⟨rfl, ?_⟩⟩
    rw [compile_of_isAllBlank h hblank] at hw
    exact (Except.ok.inj hw).symm
  · rw [hset]
    refine ⟨h, fun e' => ?_, fun _ => rfl, fun hblank => ?_⟩
    · rw [he, Option.some.injEq, Except.error.injEq]
    · rw [compile_of_isAllBlank h hblank] at he
      cases he

/-- After every call of a run the view is what its last kept source compiles to, whatever sources have
failed or have been given before: a call that fails leaves the view as it was, and a blank source
leaves a view without content. -/
theorem assign_follows (h : compile label source = .ok v) {sources : List Text}
    {before after : List Assignment} {call : Assignment}
    (hrun : v.assign sources = before ++ call :: after) :
    call.Follows label source v before := by
  induction sources generalizing source v before with
  | nil => simp [assign] at hrun
  | cons next sources ih =>
      have hfirst := follows_first h next
      rw [assign] at hrun
      cases before with
      | nil =>
          obtain ⟨rfl, -⟩ := List.cons.inj hrun
          exact hfirst
      | cons first before =>
          obtain ⟨rfl, hrest⟩ := List.cons.inj hrun
          -- The rest of the run begins with the view that the first call has left.
          have hfollows := ih hfirst.compiled hrest
          have hnames : (v.setMarkup next).1.names = v.names :=
            Except.ok.inj ((names_compile hfirst.compiled).symm.trans (names_compile h))
          exact ⟨hfollows.compiled, hfollows.error_iff, hfollows.failed, hnames ▸ hfollows.blank⟩

/-- Sources that fail in a child of a child and in the label of one, between good and blank ones. -/
def assignedSources : List Text :=
  [text "<p af-el='nav'><b af-el='menu'><i af-sock='x'>a</i><u af-sock='x'>b</u></b></p>",
    text "<b af-sock='s'>c</b>", text " ", text "<i>d</i><p af-el='!'>e</p>"]

/-- A failing call keeps the view that is there, and the next one replaces it. -/
theorem assign_follows_nested : ∃ v first second third last,
    compile (text "page") (text "<p>ok</p>") = .ok v ∧
      v.assign assignedSources = [first, second, third, last] ∧
      [first, second, third, last].map (fun call => (call.view.markup, call.view.sockets, call.error)) =
        [(text "<p>ok</p>", [], some (.duplicateSocket (text "MenuView") (text "x"))),
          (text "<b af-sock=\"s\">c</b>", [text "s"], none), ([], [], none),
          ([], [], some (.emptyLabel (text "!")))] ∧
      first.Follows (text "page") (text "<p>ok</p>") v [] ∧
      last.Follows (text "page") (text "<p>ok</p>") v [first, second, third] := by
  have hcalls : (compile (text "page") (text "<p>ok</p>")).toOption.any (fun v => decide
      ((v.assign assignedSources).map (fun call =>
          (call.view.markup, call.view.sockets, call.error)) =
        [(text "<p>ok</p>", [], some (.duplicateSocket (text "MenuView") (text "x"))),
          (text "<b af-sock=\"s\">c</b>", [text "s"], none), ([], [], none),
          ([], [], some (.emptyLabel (text "!")))])) = true := by decide +kernel
  obtain ⟨v, hv, hcalls⟩ := exists_of_any hcalls
  obtain ⟨first, second, third, last, hrun⟩ : ∃ first second third last,
      v.assign assignedSources = [first, second, third, last] := ⟨_, _, _, _, rfl⟩
  refine ⟨v, first, second, third, last, hv, hrun, ?_, ?_, ?_⟩
  · rw [← hrun]
    exact hcalls
  · have hfirst : v.assign assignedSources = [] ++ first :: [second, third, last] := hrun
    exact assign_follows hv hfirst
  · have hlast : v.assign assignedSources = [first, second, third] ++ last :: [] := hrun
    exact assign_follows hv hlast

end Viewloom.View
