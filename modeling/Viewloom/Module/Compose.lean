import Viewloom.Module.Utils
import Viewloom.Template.Print
import Viewloom.View.Basic

/-!
# Emitted modules

Each view is written as a module with a component class, which finds its controller on first use and
falls back to itself.
-/

namespace Viewloom.Module

open Template (quoted)

/-- The name of the file that a class is written to. -/
def fileName (className : Text) : Text := className ++ text ".js"

/-- The module of a class in the same directory. -/
def sibling (className : Text) : Text := text "./" ++ className

/-- The line that requires a module under a name. -/
def requireLine (name path : Text) : Text :=
  text "const " ++ name ++ text " = require(" ++ quoted path ++ text ")"

/-- The modules a view needs: the library, its children in their order, and the helpers. -/
def importLines (v : View) : List Text :=
  requireLine (text "React") (text "react") ::
    v.children.map (fun child => requireLine child.className (sibling child.className)) ++
      [requireLine (text "\x7b createScope, transformProxies \x7d") (text "./utils")]

/-- The proxies a view renders with under its own control. -/
def defaultProxies (sockets : List Text) : Text :=
  if sockets = [] then text "\x7b\x7d"
  else
    text "\x7b\n" ++
      (sockets.flatMap fun socket => text "      " ++ quoted socket ++ text ": \x7b\x7d,\n") ++
        text "    \x7d"

/-- The module of the controller of a view. -/
def controllerPath (directory : Text) (v : View) : Text :=
  Text.dropWhileEnd (· == '/') directory ++ '/' :: v.names.controllerClassName

/-- Indents a line, unless it is empty. -/
def indentLine (width : Nat) (line : Text) : Text :=
  if line = [] then [] else List.replicate width ' ' ++ line

/-- Indents the lines of a text that are not empty. -/
def indentBlock (width : Nat) (s : Text) : Text :=
  List.intercalate ['\n'] ((Text.lines s).map (indentLine width))

/-- The expression that a view renders. -/
def expression (v : View) : Text := if v.template = [] then text "null" else v.template

/-- The module of a view: what it requires, its controller, its sockets and its template. -/
def compose (v : View) (controllersDir : Text) : Text :=
  List.intercalate ['\n'] (importLines v) ++
    unlines
      [[], [],
        text "let Controller", [],
        text "class " ++ v.className ++ text " extends React.Component \x7b",
        text "  static get Controller() \x7b",
        text "    if (Controller) return Controller", [],
        text "    try \x7b",
        text "      Controller = require(" ++ quoted (controllerPath controllersDir v) ++ text ")",
        text "      Controller = Controller.default || Controller", [],
        text "      return Controller",
        text "    \x7d",
        text "    catch (e) \x7b",
        text "      if (e.code == 'MODULE_NOT_FOUND') \x7b",
        text "        Controller = " ++ v.className, [],
        text "        return Controller",
        text "      \x7d", [],
        text "      throw e",
        text "    \x7d",
        text "  \x7d", [],
        text "  render() \x7b",
        text "    const proxies = " ++ v.className ++ text ".Controller !== " ++ v.className ++
          text " ? transformProxies(this.props.children) : " ++ defaultProxies v.sockets, [],
        text "    return (",
        indentBlock 6 (expression v),
        text "    )",
        text "  \x7d",
        text "\x7d", [],
        text "module.exports = " ++ v.className]

/-- The line by which an index exports a class. -/
def indexLine (v : View) : Text :=
  text "exports." ++ v.className ++ text " = require(" ++ quoted (sibling v.className) ++ text ")"

/-- The module that exports views by their class names. -/
def composeIndex (views : List View) : Text := unlines (views.map indexLine)

end Viewloom.Module
