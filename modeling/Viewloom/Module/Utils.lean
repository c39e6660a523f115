import Viewloom.Text.Basic

/-!
# Shared module

The module that every emitted view requires next to itself. It sorts the children of a view into
proxies.
-/

namespace Viewloom.Module

/-- The helpers line by line. -/
def utilsLines : List Text :=
  [
    text "const React = require('react')",
    text "",
    text "// Index the elements passed to a view by their type. Each entry becomes the",
    text "// props of the socket with that name; `children` carries the replacement",
    text "// content, if any.",
    text "const transformProxies = (children) => \x7b",
    text "  const proxies = \x7b\x7d",
    text "",
    text "  React.Children.forEach(children, (child) => \x7b",
    text "    if (!child || typeof child !== 'object' || typeof child.type !== 'string') return",
    text "",
    text "    const props = Object.assign(\x7b\x7d, child.props)",
    text "",
    text "    if (child.key != null) props.key = child.key",
    text "    if (child.ref != null) props.ref = child.ref",
    text "",
    text "    proxies[child.type] = props",
    text "  \x7d)",
    text "",
    text "  return proxies",
    text "\x7d",
    text "",
    text "// Resolve nested sockets against the children of an enclosing proxy.",
    text "const createScope = (children, callback) => \x7b",
    text "  return callback(transformProxies(children))",
    text "\x7d",
    text "",
    text "exports.transformProxies = transformProxies",
    text "exports.createScope = createScope"]

/-- Writes lines, each one terminated. -/
def unlines (lines : List Text) : Text := lines.flatMap fun line => line ++ ['\n']

/-- The text of the helpers' module, which every view requires. -/
def utils : Text := unlines utilsLines

end Viewloom.Module
