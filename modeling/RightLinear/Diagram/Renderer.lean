import RightLinear.Diagram.Basic
import RightLinear.FileSystem

namespace RightLinear.Diagram

-- What draws diagrams to files. It gives the files afterwards, and what went wrong if anything did.
abbrev Renderer : Type :=
  FileSystem → String → Diagram → FileSystem × Option String

-- Writes the text of a diagram but finds no program to draw it.
def Renderer.undrawn : Renderer := fun files path d =>
  match files.makeMissing (FileSystem.lineage (FileSystem.parent path)) with
  | (files, some e) => (files, some e.message)
  | (files, none) =>
    match files.writeFile path d.render.toUTF8 with
    | (files, some message) => (files, some message)
    | (files, none) =>
      (files, some ("failed to execute PosixPath('dot'), " ++
        "make sure the Graphviz executables are on your systems' PATH"))

end RightLinear.Diagram
