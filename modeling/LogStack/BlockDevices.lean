/-
The choice of the database device (`choose_device` in `db-admin.py`).

`lsblk` prints a tree of block devices.  The helper goes through all of it and takes the one
node that carries the serial number of the configured volume.

* `Column`, `BlockNode` — a node with the columns that are asked for;
* `chooseDevice` — the recursive search;
* `Chosen` — what it guarantees, with `chooseDevice_eq_some`.
-/
import Mathlib.Data.List.Basic

namespace DbBootstrap

def MOUNT : String := "/srv/logstack-db"

/-- A list in a node: it may be missing, or `null`. -/
inductive Column (α : Type) where
  | missing
  | null
  | value (a : α)

/-- `node.get(key, default)`; `none` is `None`, over which no loop can go. -/
def Column.get {α : Type} (default : α) : Column α → Option α
  | missing => some default
  | null => none
  | value a => some a

/-- A node of `lsblk --json --paths --output PATH,TYPE,SERIAL,MOUNTPOINTS`. A path, a type or a
serial number that is missing is as good as `null`. -/
inductive BlockNode where
  | mk (path type serial : Option String) (mountpoints : Column (List (Option String)))
    (children : Column (List BlockNode))

namespace BlockNode

def path : BlockNode → Option String
  | mk path _ _ _ _ => path

def type : BlockNode → Option String
  | mk _ type _ _ _ => type

def serial : BlockNode → Option String
  | mk _ _ serial _ _ => serial

/-- `[m for m in node.get('mountpoints', []) if m]` -/
def mounts : BlockNode → Option (List String)
  | mk _ _ _ mountpoints _ =>
    (mountpoints.get []).map fun mounts => mounts.filterMap fun m => m.filter (· ≠ "")

/-- `node.get('children', [])` -/
def children : BlockNode → Option (List BlockNode)
  | mk _ _ _ _ children => children.get []

end BlockNode

/-! ### Patterns -/

/-- The characters that `str.strip` removes. -/
def isSpace (c : Char) : Bool :=
  (0x09 ≤ c.toNat && c.toNat ≤ 0x0d) || (0x1c ≤ c.toNat && c.toNat ≤ 0x20) ||
    c.toNat ∈ [0x85, 0xa0, 0x1680, 0x2028, 0x2029, 0x202f, 0x205f, 0x3000] ||
    (0x2000 ≤ c.toNat && c.toNat ≤ 0x200a)

def strip (s : List Char) : List Char :=
  ((s.dropWhile isSpace).reverse.dropWhile isSpace).reverse

/-- `value.replace('-', '')` -/
def withoutDashes (s : List Char) : List Char := s.filter (· ≠ '-')

/-- `[0-9a-f]` -/
def isHex (c : Char) : Bool := c.isDigit || ('a' ≤ c && c ≤ 'f')

/-- `re.fullmatch('vol-[0-9a-f]{17}', volume_id)` -/
def isVolumeId (s : String) : Bool :=
  s.toList.take 4 = "vol-".toList && (s.toList.drop 4).length = 17 && (s.toList.drop 4).all isHex

/-- `re.fullmatch('/dev/nvme[0-9]+n[0-9]+', path)` -/
def isNvmePath (s : String) : Bool :=
  let controller := (s.toList.drop 9).takeWhile Char.isDigit
  let rest := (s.toList.drop 9).dropWhile Char.isDigit
  s.toList.take 9 = "/dev/nvme".toList && !controller.isEmpty && rest.head? = some 'n' &&
    !rest.tail.isEmpty && rest.tail.all Char.isDigit

/-! ### The search -/

/-- `(node.get('serial') or '').strip().replace('-', '') == volume_id.replace('-', '')` -/
def hasSerial (volumeId : String) (node : BlockNode) : Bool :=
  withoutDashes (strip (node.serial.getD "").toList) = withoutDashes volumeId.toList

/-- What is required of a node with the serial number. -/
def isWholeDisk (node : BlockNode) : Bool :=
  node.type = some "disk" && node.children.all List.isEmpty && isNvmePath (node.path.getD "") &&
    (node.mounts = some [] || node.mounts = some [MOUNT])

mutual

/-- `visit`, with the paths found so far. -/
def visit (volumeId : String) : BlockNode → List String → Option (List String)
  | .mk path type serial mountpoints children, found =>
    let node : BlockNode := .mk path type serial mountpoints children
    if hasSerial volumeId node then
      if isWholeDisk node then visitChildren volumeId children (found ++ [path.getD ""]) else none
    else visitChildren volumeId children found

def visitChildren (volumeId : String) :
    Column (List BlockNode) → List String → Option (List String)
  | .missing, found => some found
  | .null, _ => none
  | .value nodes, found => visitAll volumeId nodes found

def visitAll (volumeId : String) : List BlockNode → List String → Option (List String)
  | [], found => some found
  | node :: nodes, found =>
    match visit volumeId node found with
    | some found => visitAll volumeId nodes found
    | none => none

end

/-- The path of the device, or an exception. -/
def chooseDevice (tree : List BlockNode) (volumeId : String) : Option String :=
  if isVolumeId volumeId then
    match visitAll volumeId tree [] with
    | some [device] => some device
    | _ => none
  else none

/-! ### The whole tree -/

mutual

/-- A node and everything below it. -/
def nodesOf : BlockNode → List BlockNode
  | .mk path type serial mountpoints children =>
    .mk path type serial mountpoints children :: nodesBelow children

def nodesBelow : Column (List BlockNode) → List BlockNode
  | .missing => []
  | .null => []
  | .value nodes => allNodes nodes

def allNodes : List BlockNode → List BlockNode
  | [] => []
  | node :: nodes => nodesOf node ++ allNodes nodes

end

/-- The only node in the whole tree with the serial number of the volume: a disk without
partitions that is mounted nowhere or at the place of the database. -/
structure Chosen (tree : List BlockNode) (volumeId device : String) : Prop where
  readable : ∀ node ∈ allNodes tree, node.children.isSome = true
  only : ∃ node, (allNodes tree).filter (hasSerial volumeId) = [node] ∧ node.path = some device ∧
    node.type = some "disk" ∧ node.children = some [] ∧ isNvmePath device = true ∧
      (node.mounts = some [] ∨ node.mounts = some [MOUNT])

/-- The loop gets past the node. -/
def passes (volumeId : String) (node : BlockNode) : Bool :=
  node.children.isSome && (!hasSerial volumeId node || isWholeDisk node)

/-- The search answers with the paths of all nodes that carry the serial number, when it gets past
all nodes. -/
def Finds (volumeId : String) (nodes : List BlockNode)
    (search : List String → Option (List String)) : Prop :=
  ∀ found, search found =
    if nodes.all (passes volumeId) then
      some (found ++ (nodes.filter (hasSerial volumeId)).map fun node => node.path.getD "")
    else none

theorem finds_append {volumeId : String} {nodes nodes' : List BlockNode}
    {search search' : List String → Option (List String)} (h : Finds volumeId nodes search)
    (h' : Finds volumeId nodes' search') :
    Finds volumeId (nodes ++ nodes') fun found => (search found).bind search' := by
  intro found
  show (search found).bind search' = _
  rw [h found, List.filter_append, List.all_append, List.map_append]
  by_cases hall : nodes.all (passes volumeId)
  · rw [if_pos hall, hall, Bool.true_and, Option.bind_some, h', List.append_assoc]
  · rw [if_neg hall, Option.bind_none, if_neg]
    simp [hall]

theorem visitChildren_null {volumeId : String} {children : Column (List BlockNode)}
    (h : (children.get []).isSome = false) (found : List String) :
    visitChildren volumeId children found = none := by
  cases children with
  | missing => cases h
  | null => rw [visitChildren]
  | value nodes => cases h

mutual

/-- By recursion on the tree. -/
theorem finds_visit (volumeId : String) : (node : BlockNode) →
    Finds volumeId (nodesOf node) (visit volumeId node)
  | .mk path type serial mountpoints children => by
    intro found
    have hbelow := finds_visitChildren volumeId children
    rw [visit, nodesOf, List.all_cons, passes]
    cases hreadable : (children.get []).isSome with
    | false =>
      -- no branch gets past the children
      rw [BlockNode.children, hreadable, Bool.false_and, Bool.false_and, if_neg Bool.false_ne_true]
      simp only [visitChildren_null hreadable, ite_self]
    | true =>
      rw [BlockNode.children, hreadable, Bool.true_and]
      by_cases hserial : hasSerial volumeId (.mk path type serial mountpoints children) = true
      · rw [if_pos hserial, List.filter_cons_of_pos hserial, hserial, Bool.not_true,
          Bool.false_or]
        by_cases hdisk : isWholeDisk (.mk path type serial mountpoints children) = true
        · rw [if_pos hdisk, hdisk, Bool.true_and, hbelow hreadable, List.map_cons,
            List.append_assoc]
          rfl
        · rw [if_neg hdisk, eq_false_of_ne_true hdisk, Bool.false_and,
            if_neg Bool.false_ne_true]
      · rw [if_neg hserial, List.filter_cons_of_neg hserial, eq_false_of_ne_true hserial,
          Bool.not_false, Bool.true_or, Bool.true_and, hbelow hreadable]

theorem finds_visitChildren (volumeId : String) : (children : Column (List BlockNode)) →
    (children.get []).isSome = true →
    Finds volumeId (nodesBelow children) (visitChildren volumeId children)
  | .missing, _ => fun found => by simp [visitChildren, nodesBelow]
  | .null, h => nomatch h
  | .value nodes, _ => by
    intro found
    rw [visitChildren, nodesBelow]
    exact finds_visitAll volumeId nodes found

theorem finds_visitAll (volumeId : String) : (nodes : List BlockNode) →
    Finds volumeId (allNodes nodes) (visitAll volumeId nodes)
  | [] => fun found => by simp [visitAll, allNodes]
  | node :: nodes => by
    intro found
    have h := finds_append (finds_visit volumeId node) (finds_visitAll volumeId nodes) found
    rw [allNodes, ← h, visitAll]
    show _ = (visit volumeId node found).bind (visitAll volumeId nodes)
    cases visit volumeId node found <;> rfl

end

/-- **The chosen device is the volume's and safe to use**; nothing is guessed. -/
theorem chooseDevice_eq_some {tree : List BlockNode} {volumeId device : String} :
    chooseDevice tree volumeId = some device ↔
      isVolumeId volumeId = true ∧ Chosen tree volumeId device := by
  rw [chooseDevice]
  by_cases hid : isVolumeId volumeId = true
  · rw [if_pos hid, finds_visitAll volumeId tree []]
    constructor
    · intro h
      refine ⟨hid, ?_⟩
      split_ifs at h with hall
      · have hpasses : ∀ node ∈ allNodes tree, node.children.isSome = true ∧
            (hasSerial volumeId node = true → isWholeDisk node = true) := by
          intro node hnode
          have hnode := List.all_eq_true.mp hall node hnode
          simp only [passes, Bool.and_eq_true, Bool.or_eq_true, Bool.not_eq_true'] at hnode
          exact ⟨hnode.1, fun hserial => hnode.2.resolve_left (by simp [hserial])⟩
        refine ⟨fun node hnode => (hpasses node hnode).1, ?_⟩
        -- no device with the serial number is too few, two are too many
        generalize hnodes : (allNodes tree).filter (hasSerial volumeId) = nodes at h ⊢
        match nodes with
        | [] => exact absurd h (by simp)
        | [node] =>
          obtain ⟨hmem, hserial⟩ := List.mem_filter.mp (hnodes ▸ List.mem_singleton_self node)
          obtain ⟨hreadable, hdisk⟩ := hpasses node hmem
          obtain ⟨children, hchildren⟩ := Option.isSome_iff_exists.mp hreadable
          have hdisk := hdisk hserial
          simp only [isWholeDisk, Bool.and_eq_true, Bool.or_eq_true, decide_eq_true_eq, hchildren,
            Option.all_some, List.isEmpty_iff] at hdisk
          obtain ⟨⟨⟨htype, rfl⟩, hpath⟩, hmounts⟩ := hdisk
          obtain rfl : node.path.getD "" = device := by simpa using h
          have hsome : node.path = some (node.path.getD "") := by
            cases hcase : node.path with
            | some path => rfl
            | none =>
              rw [hcase] at hpath
              exact absurd hpath (by decide +kernel)
          exact ⟨node, rfl, hsome, htype, hchildren, hpath, hmounts⟩
        | node :: node' :: nodes => exact absurd h (by simp)
    · rintro ⟨-, hreadable, node, hnodes, hpath, htype, hchildren, hnvme, hmounts⟩
      have hdisk : isWholeDisk node = true := by
        simp only [isWholeDisk, Bool.and_eq_true, Bool.or_eq_true, decide_eq_true_eq, hchildren,
          Option.all_some, List.isEmpty_nil]
        exact ⟨⟨⟨htype, trivial⟩, by rw [hpath]; exact hnvme⟩, hmounts⟩
      have hall : (allNodes tree).all (passes volumeId) = true := by
        refine List.all_eq_true.mpr fun other hother => ?_
        cases hserial : hasSerial volumeId other with
        | false => simp [passes, hreadable other hother, hserial]
        | true =>
          have hmem : other ∈ [node] := hnodes ▸ List.mem_filter.mpr ⟨hother, hserial⟩
          rw [List.mem_singleton.mp hmem] at *
          simp [passes, hchildren, hdisk]
      rw [if_pos hall, hnodes, List.map_singleton, hpath]
      rfl
  · rw [if_neg hid]
    refine ⟨fun h => ?_, fun h => absurd h.1 hid⟩
    cases h

end DbBootstrap
