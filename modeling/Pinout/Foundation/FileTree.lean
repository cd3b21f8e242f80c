import Pinout.Foundation.Utf8
import Mathlib.Data.List.Sort

/-! # File trees

Trees of directories and files, the walks that list the files of a tree in some order and leave some of them
out, and the text of a path. A walk is told by what it finds: the files of the tree on whose path nothing is
left out (`mem_walk`). -/

namespace Pinout.Foundation

/-- A stable sort: what compares equal keeps its order. -/
def sortBy {α : Type*} (le : α → α → Bool) (l : List α) : List α := l.insertionSort fun a b => le a b = true

@[simp] theorem mem_sortBy {α : Type*} {le : α → α → Bool} {l : List α} {a : α} : a ∈ sortBy le l ↔ a ∈ l :=
  (List.perm_insertionSort _ l).mem_iff

theorem filter_orderedInsert {α : Type*} {r : α → α → Prop} [DecidableRel r]
    (htrans : ∀ a b c, r a b → r b c → r a c) (p : α → Bool) (a : α) {l : List α} (hl : l.Pairwise r) :
    (l.orderedInsert r a).filter p = if p a then (l.filter p).orderedInsert r a else l.filter p := by
  induction l with
  | nil => by_cases ha : p a <;> simp [ha]
  | cons b l ih =>
    obtain ⟨hb, hl⟩ := List.pairwise_cons.mp hl
    rw [List.orderedInsert_cons]
    by_cases hab : r a b
    · rw [if_pos hab, List.filter_cons]
      by_cases ha : p a
      · rw [if_pos ha, if_pos ha, List.filter_cons]
        by_cases hpb : p b
        · rw [if_pos hpb, List.orderedInsert_cons, if_pos hab]
        · -- what is kept behind `b` is not before `a` either
          rw [if_neg hpb]
          cases hrest : l.filter p with
          | nil => rfl
          | cons c rest =>
            have hc : c ∈ l := (List.mem_filter.mp (hrest ▸ List.mem_cons_self)).1
            rw [List.orderedInsert_cons, if_pos (htrans a b c hab (hb c hc))]
      · rw [if_neg ha, if_neg ha]
    · rw [if_neg hab, List.filter_cons, ih hl, List.filter_cons]
      by_cases ha : p a <;> by_cases hpb : p b <;> simp [ha, hpb, hab]

theorem filter_sortBy {α : Type*} {le : α → α → Bool} (htotal : ∀ a b, le a b = true ∨ le b a = true)
    (htrans : ∀ a b c, le a b = true → le b c = true → le a c = true) (p : α → Bool) (l : List α) :
    (sortBy le l).filter p = sortBy le (l.filter p) := by
  let r (a b : α) : Prop := le a b = true
  have hr : Std.Total r := ⟨htotal⟩
  have ht : IsTrans α r := ⟨htrans⟩
  induction l with
  | nil => rfl
  | cons a l ih =>
    have hsorted : (sortBy le l).Pairwise r := List.pairwise_insertionSort r l
    have hcons : ∀ l, sortBy le (a :: l) = (sortBy le l).orderedInsert r a := fun l => List.insertionSort_cons r a l
    rw [hcons, filter_orderedInsert htrans p a hsorted, ih, List.filter_cons]
    by_cases ha : p a
    · rw [if_pos ha, if_pos ha, hcons]
    · rw [if_neg ha, if_neg ha]

structure FileName where
  text : JsString
  wellFormed : WellFormed text
  noSlash : (47 : UInt16) ∉ text
  deriving DecidableEq

inductive FileNode
  | file (bytes : List UInt8)
  | dir (entries : List (FileName × FileNode))
  /-- A symbolic link or a special file, with what is read from it, if it can be read. -/
  | other (content : Option (List UInt8))

namespace FileNode

def isDir : FileNode → Bool
  | dir _ => true
  | file _ | other _ => false

/-- Induction over a tree, with what holds of every entry of a directory. -/
theorem induct {motive : FileNode → Prop} (file : ∀ bytes, motive (.file bytes))
    (other : ∀ content, motive (.other content))
    (dir : ∀ entries, (∀ name node, (name, node) ∈ entries → motive node) → motive (.dir entries)) :
    ∀ node, motive node
  | .file bytes => file bytes
  | .other content => other content
  | .dir entries => dir entries fun name node hmem =>
    have : sizeOf node < 1 + sizeOf entries := by
      have hlt := List.sizeOf_lt_of_mem hmem
      rw [Prod.mk.sizeOf_spec] at hlt
      omega
    induct file other dir node
termination_by node => sizeOf node

inductive HasFile : FileNode → List FileName → List UInt8 → Prop
  | file (bytes : List UInt8) : HasFile (.file bytes) [] bytes
  | dir {entries : List (FileName × FileNode)} {name : FileName} {node : FileNode} {path : List FileName}
      {bytes : List UInt8} (h : (name, node) ∈ entries) (hfile : HasFile node path bytes) :
      HasFile (.dir entries) (name :: path) bytes

variable (le : FileName → FileName → Bool) (keep : FileName → Bool → Bool)

/-- What is found in the entries of a directory, in the order of their names. -/
def gather (found : List (FileName × List (List FileName × List UInt8))) : List (List FileName × List UInt8) :=
  (sortBy (fun a b => le a.1 b.1) found).flatMap fun entry =>
    entry.2.map fun file => (entry.1 :: file.1, file.2)

mutual

/-- The files of a tree, in the order of their names, without the entries that are not kept. -/
def walk : FileNode → List (List FileName × List UInt8)
  | .file bytes => [([], bytes)]
  | .dir entries => gather le (walkEntries entries)
  | .other _ => []

def walkEntries : List (FileName × FileNode) → List (FileName × List (List FileName × List UInt8))
  | [] => []
  | (name, node) :: entries =>
    if keep name node.isDir then (name, walk node) :: walkEntries entries else walkEntries entries

end

def Kept : List FileName → Prop
  | [] => True
  | [name] => keep name false = true
  | name :: path => keep name true = true ∧ Kept path

variable {le keep}

theorem gather_filter (htotal : ∀ a b, le a b = true ∨ le b a = true)
    (htrans : ∀ a b c, le a b = true → le b c = true → le a c = true)
    (found : List (FileName × List (List FileName × List UInt8))) :
    gather le (found.filter fun entry => entry.2 ≠ []) = gather le found := by
  rw [gather, gather, ← filter_sortBy (fun a b => htotal a.1 b.1) (fun a b c => htrans a.1 b.1 c.1)]
  induction sortBy (fun a b => le a.1 b.1) found with
  | nil => rfl
  | cons entry found ih =>
    obtain ⟨name, files⟩ := entry
    cases files with
    | nil => simpa using ih
    | cons file files => simpa using ih

theorem mem_gather {found : List (FileName × List (List FileName × List UInt8))} {path : List FileName}
    {bytes : List UInt8} : (path, bytes) ∈ gather le found ↔
      ∃ name files rest, (name, files) ∈ found ∧ (rest, bytes) ∈ files ∧ path = name :: rest := by
  constructor
  · intro h
    obtain ⟨⟨name, files⟩, hentry, h⟩ := List.mem_flatMap.mp h
    obtain ⟨⟨rest, bytes'⟩, hfile, heq⟩ := List.mem_map.mp h
    obtain ⟨rfl, rfl⟩ := Prod.mk.inj heq
    exact ⟨name, files, rest, mem_sortBy.mp hentry, hfile, rfl⟩
  · rintro ⟨name, files, rest, hentry, hfile, rfl⟩
    exact List.mem_flatMap.mpr ⟨(name, files), mem_sortBy.mpr hentry,
      List.mem_map.mpr ⟨(rest, bytes), hfile, rfl⟩⟩

theorem mem_walkEntries {entries : List (FileName × FileNode)} {name : FileName}
    {files : List (List FileName × List UInt8)} : (name, files) ∈ walkEntries le keep entries ↔
      ∃ node, (name, node) ∈ entries ∧ keep name node.isDir = true ∧ files = walk le keep node := by
  induction entries with
  | nil => simp [walkEntries]
  | cons entry entries ih =>
    obtain ⟨other, node⟩ := entry
    rw [walkEntries]
    split
    · next hkeep =>
      rw [List.mem_cons, ih]
      constructor
      · rintro (heq | ⟨node', hmem, h⟩)
        · obtain ⟨rfl, rfl⟩ := Prod.mk.inj heq
          exact ⟨node, List.mem_cons_self, hkeep, rfl⟩
        · exact ⟨node', List.mem_cons_of_mem _ hmem, h⟩
      · rintro ⟨node', hmem, h, rfl⟩
        rcases List.mem_cons.mp hmem with heq | hmem
        · obtain ⟨rfl, rfl⟩ := Prod.mk.inj heq
          exact .inl rfl
        · exact .inr ⟨node', hmem, h, rfl⟩
    · next hkeep =>
      rw [ih]
      constructor
      · rintro ⟨node', hmem, h⟩
        exact ⟨node', List.mem_cons_of_mem _ hmem, h⟩
      · rintro ⟨node', hmem, h, rfl⟩
        rcases List.mem_cons.mp hmem with heq | hmem
        · obtain ⟨rfl, rfl⟩ := Prod.mk.inj heq
          exact absurd h hkeep
        · exact ⟨node', hmem, h, rfl⟩

theorem HasFile.kept_cons {name : FileName} {node : FileNode} {path : List FileName} {bytes : List UInt8}
    (h : HasFile node path bytes) :
    Kept keep (name :: path) ↔ keep name node.isDir = true ∧ Kept keep path := by
  cases h with
  | file => exact ⟨fun h => ⟨h, trivial⟩, fun h => h.1⟩
  | dir => exact Iff.rfl

/-- **A walk finds the files on whose path nothing is left out.** -/
theorem mem_walk {node : FileNode} {path : List FileName} {bytes : List UInt8} :
    (path, bytes) ∈ walk le keep node ↔ HasFile node path bytes ∧ Kept keep path := by
  induction node using induct generalizing path with
  | file content =>
    rw [walk, List.mem_singleton, Prod.mk.injEq]
    constructor
    · rintro ⟨rfl, rfl⟩
      exact ⟨.file _, trivial⟩
    · rintro ⟨⟨⟩, -⟩
      exact ⟨rfl, rfl⟩
  | other content =>
    rw [walk]
    exact ⟨nofun, fun h => nomatch h.1⟩
  | dir entries ih =>
    rw [walk, mem_gather]
    constructor
    · rintro ⟨name, files, rest, hfound, hfile, rfl⟩
      obtain ⟨node, hmem, hkeep, rfl⟩ := mem_walkEntries.mp hfound
      obtain ⟨hhas, hkept⟩ := (ih name node hmem).mp hfile
      exact ⟨.dir hmem hhas, hhas.kept_cons.mpr ⟨hkeep, hkept⟩⟩
    · rintro ⟨hhas, hkept⟩
      cases hhas with
      | @dir _ name node rest _ hmem hhas =>
        obtain ⟨hkeep, hkept⟩ := hhas.kept_cons.mp hkept
        exact ⟨name, _, rest, mem_walkEntries.mpr ⟨node, hmem, hkeep, rfl⟩,
          (ih name node hmem).mpr ⟨hhas, hkept⟩, rfl⟩

theorem hasFile_iff_mem_walk (le : FileName → FileName → Bool) {node : FileNode} {path : List FileName}
    {bytes : List UInt8} : HasFile node path bytes ↔ (path, bytes) ∈ walk le (fun _ _ => true) node := by
  have hkept : ∀ path : List FileName, Kept (fun _ _ => true) path := by
    intro path
    induction path with
    | nil => exact trivial
    | cons name path ih =>
      cases path with
      | nil => rfl
      | cons other path => exact ⟨rfl, ih⟩
  exact ⟨fun h => mem_walk.mpr ⟨h, hkept path⟩, fun h => (mem_walk.mp h).1⟩

instance (node : FileNode) (path : List FileName) (bytes : List UInt8) : Decidable (HasFile node path bytes) :=
  decidable_of_iff _ (hasFile_iff_mem_walk (fun _ _ => true)).symm

end FileNode

/-! ## The text of a path -/

def pathText (path : List FileName) : JsString := List.intercalate [47] (path.map (·.text))

theorem pathText_inj {p q : List FileName} (hp : p ≠ []) (hq : q ≠ []) (h : pathText p = pathText q) : p = q := by
  have hnames : ∀ r : List FileName, r ≠ [] → (pathText r).splitOn 47 = r.map (·.text) := by
    intro r hr
    refine List.splitOn_intercalate 47 (fun name hname => ?_) (by simpa using hr)
    obtain ⟨entry, -, rfl⟩ := List.mem_map.mp hname
    exact entry.noSlash
  have htexts : p.map (·.text) = q.map (·.text) := by rw [← hnames p hp, h, hnames q hq]
  refine List.map_injective_iff.mpr (fun a b hab => ?_) htexts
  cases a
  cases b
  cases hab
  rfl

end Pinout.Foundation
