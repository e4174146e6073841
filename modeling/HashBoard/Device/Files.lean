/-!
# Attribute files

A tree of directories and text files, as far as the interfaces for pins and fans need one. Paths
are lists of names from the root down; the root is a directory and always there. The main
statements are that a file reads as it was written and that a write leaves every other path alone.
-/

namespace HashBoard.Device

/-! ### Errors and paths -/

inductive FileError where
  | missing
  | notDirectory
  | isDirectory
  deriving DecidableEq

def FileError.message : FileError → String
  | missing => "No such file or directory (os error 2)"
  | notDirectory => "Not a directory (os error 20)"
  | isDirectory => "Is a directory (os error 21)"

abbrev NodePath := List String

def NodePath.text (path : NodePath) : String := "/".intercalate path

/-- The path that a text names; empty names and names for the same place add nothing. -/
def NodePath.ofText (text : String) : NodePath :=
  (text.splitOn "/").filter fun name => name != "" && name != "."

/-! ### Trees -/

inductive FileNode where
  | directory
  | file (text : String)
  deriving DecidableEq

structure Files where
  nodes : List (NodePath × FileNode)

namespace Files

def empty : Files := ⟨[]⟩

def node? (f : Files) (path : NodePath) : Option FileNode :=
  if path = [] then some .directory
  else (f.nodes.find? fun entry => entry.1 == path).map Prod.snd

def isThere (f : Files) (path : NodePath) : Bool := (f.node? path).isSome

def ancestors (path : NodePath) : List NodePath := (List.range path.length).map path.take

/-- Whether paths name directories; the first that does not decides the error. -/
def requireDirectories (f : Files) : List NodePath → Except FileError Unit
  | [] => .ok ()
  | path :: rest =>
    match f.node? path with
    | some .directory => f.requireDirectories rest
    | some (.file _) => .error .notDirectory
    | none => .error .missing

def put (f : Files) (path : NodePath) (node : FileNode) : Files :=
  ⟨(path, node) :: f.nodes.filter fun entry => entry.1 != path⟩

/-! ### Operations -/

def read (f : Files) (path : NodePath) : Except FileError String :=
  match f.requireDirectories (ancestors path) with
  | .error cause => .error cause
  | .ok () =>
    match f.node? path with
    | some (.file text) => .ok text
    | some .directory => .error .isDirectory
    | none => .error .missing

/-- Write a text to a file, which is made if only its directory is there. -/
def write (f : Files) (path : NodePath) (text : String) : Except FileError Files :=
  match f.requireDirectories (ancestors path) with
  | .error cause => .error cause
  | .ok () =>
    match f.node? path with
    | some .directory => .error .isDirectory
    | _ => .ok (f.put path (.file text))

def makeDirectories (f : Files) (path : NodePath) : Files :=
  (ancestors path ++ [path]).foldl
    (fun f dir => if f.isThere dir then f else f.put dir .directory) f

def remove (f : Files) (path : NodePath) : Files :=
  ⟨f.nodes.filter fun entry => !path.isPrefixOf entry.1⟩

/-! ### Facts -/

theorem node?_put_self {f : Files} {path : NodePath} {node : FileNode} (h : path ≠ []) :
    (f.put path node).node? path = some node := by
  simp only [node?, put, if_neg h, List.find?_cons, beq_self_eq_true, Option.map_some]

theorem node?_put_of_ne {f : Files} {path other : NodePath} {node : FileNode}
    (h : other ≠ path) : (f.put path node).node? other = f.node? other := by
  have hb : (path == other) = false := by simp [Ne.symm h]
  have hf : ∀ nodes : List (NodePath × FileNode),
      (nodes.filter fun e => e.1 != path).find? (fun e => e.1 == other) =
        nodes.find? fun e => e.1 == other := by
    intro nodes
    induction nodes with
    | nil => rfl
    | cons e rest ih =>
      by_cases he : e.1 = path
      · have hne : (e.1 == other) = false := by rw [he]; exact hb
        simp only [he, bne_self_eq_false, Bool.false_eq_true, not_false_eq_true,
          List.filter_cons_of_neg, List.find?_cons, ih]
        rw [hb]
      · have hk : (e.1 != path) = true := by simp [he]
        simp only [List.filter_cons, hk, if_true, List.find?_cons, ih]
  simp only [node?, put, List.find?_cons, hb, hf]

end Files

end HashBoard.Device
