import Viewloom.Cache
import Viewloom.Controller.Directory
import Viewloom.Module.Check
import Viewloom.Module.Compose
import Viewloom.Options
import Viewloom.Page
import Viewloom.View.Compile

/-!
# Written sites

A view is written as one module for each class in its tree, and a site as the modules of all its
pages with an index and a shared module. What a loader of controllers answers is not written.
-/

namespace Viewloom.Site

/-- The directory of the controllers as the modules of the views name it. -/
def relativeControllersDir (viewsDir controllersDir : Path) : Path :=
  let way := (Path.relative? controllersDir viewsDir).getD controllersDir
  let way := way.map fun c => if c = '\\' then '/' else c
  if way = [] then ['.']
  else if way.head? = some '.' ∨ way.head? = some '/' then way
  else text "./" ++ way

/-- The module of a view, checked and perhaps printed anew. -/
def renderModule (options : Options) (view : View) : Except Error Text :=
  let code :=
    Module.compose view (relativeControllersDir options.viewsDir options.controllersDir)
  if options.formatModules then Module.format view.className code
  else
    match Module.check view.className code with
    | .ok _ => .ok code
    | .error e => .error e

/-- The file of the module of a view. -/
def unitPath (options : Options) (view : View) : Path :=
  Path.join options.viewsDir (Module.fileName view.className)

/-- The first view of each class, in order. -/
def distinct (seen : List View) : List View → List View
  | [] => []
  | v :: vs =>
    if seen.any fun w => w.className == v.className then distinct seen vs
    else v :: distinct (v :: seen) vs

/-- The classes of which a later view differs from the first one, in the order of those views. -/
def conflicts (units : List View) (views : List View) : List Text :=
  (views.filter fun v => units.any fun u => u.className == v.className && u != v).map View.className

/-- The tree, what a loader has found out, and the names it was asked for. -/
structure State where
  tree : FileTree
  resolver : Resolver
  asked : List Text

namespace State

/-- The state before anything has been written. -/
def start (tree : FileTree) : State := ⟨tree, [], []⟩

/-- Looks up the controller of a view. A failure is passed over. -/
def resolve (s : State) (loader : Loader) (view : View) : State :=
  let (_, resolver, isAsked) := s.resolver.resolve loader view.names.controllerClassName
  { s with
    resolver := resolver
    asked := if isAsked then s.asked ++ [view.names.controllerClassName] else s.asked }

/-- Writes a text to a path. -/
def write (s : State) (p : Path) (content : Text) : Except Error State :=
  match s.tree.write p (some content) with
  | .ok tree => .ok { s with tree := tree }
  | .error cause => .error (.access p cause)

end State

/-- Writes the module of a view. -/
def writeUnit (options : Options) (loader : Loader) (s : State) (view : View) :
    State × Except Error Path :=
  let s := s.resolve loader view
  match renderModule options view with
  | .error e => (s, .error e)
  | .ok code =>
    match s.write (unitPath options view) code with
    | .ok s => (s, .ok (unitPath options view))
    | .error e => (s, .error e)

/-- Writes the modules of views, also behind one that fails. The views may be written at the same time,
so which of several failures is reported is left open; here it is the first one in order. -/
def writeUnits (options : Options) (loader : Loader) :
    State → List View → State × Except Error (List Path)
  | s, [] => (s, .ok [])
  | s, v :: vs =>
    let (s, first) := writeUnit options loader s v
    let (s, rest) := writeUnits options loader s vs
    match first, rest with
    | .ok p, .ok ps => (s, .ok (p :: ps))
    | .error e, _ => (s, .error e)
    | .ok _, .error e => (s, .error e)

/-- Writes a view with all views below it; gives the path of each one. Nothing is written if two of
one class differ. -/
def writeView (options : Options) (loader : Loader) (tree : FileTree) (view : View) :
    State × Except Error (List Path) :=
  let views := view.descendants
  let units := distinct [] views
  match conflicts units views with
  | className :: _ => (.start tree, .error (.conflictingView className))
  | [] =>
    match writeUnits options loader (.start tree) units with
    | (s, .ok _) => (s, .ok (views.map (unitPath options)))
    | (s, .error e) => (s, .error e)

/-- The file that exports all classes. -/
def indexPath (options : Options) : Path := Path.join options.viewsDir (text "index.js")

/-- The file of the helpers. -/
def utilsPath (options : Options) : Path := Path.join options.viewsDir (text "utils.js")

/-- Writes a text and goes on if that fails. -/
def attemptWrite (s : State) (p : Path) (content : Text) : State × Option Error :=
  match s.write p content with
  | .ok s => (s, none)
  | .error e => (s, some e)

/-- Writes all views with an index and the shared module. Of several views of one class the first one
is written. -/
def writeAll (options : Options) (loader : Loader) (tree : FileTree) (roots : List View) :
    State × Except Error (List Path) :=
  match tree.makeDirectories options.viewsDir with
  | .error cause => (.start tree, .error (.access options.viewsDir cause))
  | .ok tree =>
    let units := distinct [] (View.descendantsAll roots)
    let (s, written) := writeUnits options loader (.start tree) units
    let (s, indexError) := attemptWrite s (indexPath options) (Module.composeIndex units)
    let (s, utilsError) := attemptWrite s (utilsPath options) Module.utils
    match indexError, utilsError, written with
    | some e, _, _ => (s, .error e)
    | none, some e, _ => (s, .error e)
    | none, none, .error e => (s, .error e)
    | none, none, .ok paths => (s, .ok (indexPath options :: utilsPath options :: paths))

/-! ## Whole sites -/

/-- Compiles a page, or takes its view from the cache. -/
def compilePage (cacheDir : Option Path) (tree : FileTree) (page : Page) :
    FileTree × Except Error View :=
  match page.read tree with
  | .error e => (tree, .error e)
  | .ok source =>
    match cacheDir with
    | none => (tree, View.compile page.label source)
    | some dir =>
      match Cache.get tree dir page.path page.label source with
      | (some view, tree) => (tree, .ok view)
      | (none, tree) =>
        match View.compile page.label source with
        | .error e => (tree, .error e)
        | .ok view =>
          match Cache.set tree dir page.path page.label source view with
          | .ok tree => (tree, .ok view)
          | .error e => (tree, .error e)

/-- Compiles pages, also behind one that fails. The pages may be compiled at the same time, so which of
several failures is reported is left open; here it is the first one in order. -/
def compilePages (cacheDir : Option Path) :
    FileTree → List Page → FileTree × Except Error (List View)
  | tree, [] => (tree, .ok [])
  | tree, page :: pages =>
    let (tree, first) := compilePage cacheDir tree page
    let (tree, rest) := compilePages cacheDir tree pages
    match first, rest with
    | .ok v, .ok vs => (tree, .ok (v :: vs))
    | .error e, _ => (tree, .error e)
    | .ok _, .error e => (tree, .error e)

/-- Makes the directory of the cache, if there is one. -/
def startCache (tree : FileTree) : Option Path → Except Error FileTree
  | none => .ok tree
  | some dir => Cache.start tree dir

/-- Compiles the pages below a directory and writes their views. -/
def transpile (options : Options) (tree : FileTree) (input : Path) :
    FileTree × Except Error (List Path) :=
  match Page.discover tree input with
  | .error e => (tree, .error e)
  | .ok pages =>
    match startCache tree options.cacheDir with
    | .error e => (tree, .error e)
    | .ok tree =>
      match compilePages options.cacheDir tree pages with
      | (tree, .error e) => (tree, .error e)
      | (tree, .ok views) =>
        let loader := Controller.directoryLoader tree options.controllersDir
        let (s, outcome) := writeAll options loader tree views
        (s.tree, outcome)

end Viewloom.Site
