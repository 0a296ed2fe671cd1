/-
What must be known before a command of `prepare` runs.

The history of a volume is told by the events of all runs.  An invariant ties them to what is on
the volumes, and a guard for each command says what a run must have found out before it.

* `Blank`, `HeldData`, `Marked` — what is on a volume;
* `Kept` — what no command does to a volume, except for formatting;
* `Initialising` — what must have happened before `initdb`;
* `Guard`, `Inv`, `policy` — every command under its guard keeps the invariant.
-/
import LogStack.DbBootstrap

open Script

namespace DbBootstrap

/-! ### Volumes -/

/-- Nothing but an empty `lost+found`. -/
def Blank (root : Dir) : Prop :=
  ∀ name node, root.find? name = some node → name = LOST_FOUND ∧ node = .directory []

def HeldData : Volume → Prop
  | .unsigned => False
  | .foreign _ _ => True
  | .ext4 root _ => ¬Blank root

def Marked : Volume → Prop
  | .ext4 root _ => root.find? MARKER ≠ none
  | _ => False

namespace Dir

variable {d : Dir} {name name' : String} {node : Node}

theorem find?_cons (e : String × Node) (d : Dir) (name : String) :
    find? (e :: d) name = if name = e.1 then some e.2 else find? d name := by
  rw [find?, List.lookup_cons]
  by_cases h : name = e.1
  · rw [if_pos h, h, beq_self_eq_true]
  · rw [if_neg h, beq_false_of_ne h]
    rfl

theorem find?_put_self (d : Dir) (name : String) (node : Node) :
    (d.put name node).find? name = some node := by
  rw [put, find?_cons, if_pos rfl]

theorem find?_put_of_ne (h : name' ≠ name) : (d.put name node).find? name' = d.find? name' := by
  rw [put, find?_cons, if_neg h]
  induction d with
  | nil => rfl
  | cons e d ih =>
    rw [find?_cons]
    by_cases he : e.1 = name
    · rw [List.filter_cons_of_neg (by simpa using he), ih, if_neg (he ▸ h)]
    · rw [List.filter_cons_of_pos (by simpa using he), find?_cons, ih]

theorem put_put (d : Dir) (name : String) (node node' : Node) :
    (d.put name node).put name node' = d.put name node' := by
  rw [put, put, put, List.filter_cons_of_neg (by simp), List.filter_filter]
  simp

theorem mem_names_of_find? (h : d.find? name = some node) : name ∈ d.names := by
  induction d with
  | nil => cases h
  | cons e d ih =>
    rw [find?_cons] at h
    rw [names, List.map_cons]
    by_cases he : name = e.1
    · exact he ▸ List.mem_cons_self
    · rw [if_neg he] at h
      exact List.mem_cons_of_mem _ (ih h)

end Dir

/-- What no step but formatting ever does to a volume: unmark it, or empty it. -/
def Kept (volume volume' : Volume) : Prop :=
  (Marked volume → Marked volume') ∧ (HeldData volume → HeldData volume')

theorem Kept.refl (volume : Volume) : Kept volume volume := ⟨id, id⟩

/-- Writing the marker or in `pgdata` keeps both. -/
theorem kept_put {root : Dir} {others : List String} {name : String} {node : Node}
    (hname : name ≠ LOST_FOUND) : Kept (.ext4 root others) (.ext4 (root.put name node) others) := by
  refine ⟨fun hmarked => ?_, fun _ hblank => hname (hblank name node (Dir.find?_put_self ..)).1⟩
  show (root.put name node).find? MARKER ≠ none
  by_cases hmarker : MARKER = name
  · rw [hmarker, Dir.find?_put_self]
    exact Option.some_ne_none node
  · rwa [Dir.find?_put_of_ne hmarker]

theorem kept_of_signatures_eq_nil {volume volume' : Volume} (h : volume.signatures = []) :
    Kept volume volume' := by
  cases volume with
  | unsigned => exact ⟨False.elim, False.elim⟩
  | foreign signature others => exact absurd h (List.cons_ne_nil _ _)
  | ext4 root others => exact absurd h (List.cons_ne_nil _ _)

namespace World

variable {w : World} {name : String} {node : Node} {root : Dir} {v : String}

@[simp] theorem shown_setVolume (volume : Volume) : (w.setVolume v volume).shown = w.shown := rfl

theorem volumes_setVolume (v : String) (volume : Volume) (v' : String) :
    (w.setVolume v volume).volumes v' = if v' = v then volume else w.volumes v' :=
  Function.update_apply ..

@[simp] theorem shown_put : (w.put name node).shown = w.shown := by
  unfold put
  split
  · split <;> rfl
  · split <;> rfl

@[simp] theorem attached_put : (w.put name node).attached = w.attached := by
  unfold put
  split
  · split <;> rfl
  · split <;> rfl

/-- Some directory is seen only where an ext4 file system is. -/
theorem volumes_of_root? (hshown : w.shown = some v) (hroot : w.root? = some root) :
    ∃ others, w.volumes v = .ext4 root others := by
  rw [root?, hshown] at hroot
  dsimp only at hroot
  split at hroot
  · next root' others hvolume =>
    obtain rfl := Option.some_inj.mp hroot
    exact ⟨others, hvolume⟩
  · cases hroot

theorem put_of_root? (hshown : w.shown = some v) (hroot : w.root? = some root) :
    ∃ others, w.volumes v = .ext4 root others ∧
      w.put name node = w.setVolume v (.ext4 (root.put name node) others) := by
  obtain ⟨others, hvolume⟩ := volumes_of_root? hshown hroot
  refine ⟨others, hvolume, ?_⟩
  rw [put, hshown]
  dsimp only
  rw [hvolume]

theorem root?_put (name : String) (node : Node) (hshown : w.shown = some v)
    (hroot : w.root? = some root) :
    (w.put name node).root? = some (root.put name node) := by
  obtain ⟨others, -, hput⟩ := put_of_root? hshown hroot
  rw [hput, root?, shown_setVolume, hshown]
  dsimp only
  rw [volumes_setVolume, if_pos rfl]

/-- Writing the marker or in `pgdata` keeps every volume. -/
theorem kept_volumes_put (hname : name ≠ LOST_FOUND) (v : String) :
    Kept (w.volumes v) ((w.put name node).volumes v) := by
  unfold put
  split
  · next v' hshown =>
    split
    · next root others hvolume =>
      rw [volumes_setVolume]
      split_ifs with hv
      · rw [hv, hvolume]
        exact kept_put hname
      · exact .refl _
    · exact .refl _
  · split
    · exact .refl _
    · exact .refl _

end World

/-! ### Events -/

abbrev DbEvent := Event commands

/-- `initdb` on a volume. -/
def initialises (v : String) (e : DbEvent) : Bool :=
  match (e.command : Command) with
  | .initdb => e.before.shown = some v
  | _ => false

/-- How often `initdb` has been attempted on a volume. -/
def initdbs (es : List DbEvent) (v : String) : ℕ := es.countP (initialises v)

/-- Where no marker is found and nothing but `lost+found` is listed, this is not a symbolic link
that leads nowhere. -/
def Meets (es : List DbEvent) : Prop :=
  ∀ e ∈ es, (e.command : Command) = .iterdir .mount → ∀ root, e.before.root? = some root →
    (∀ name ∈ root.names, name = LOST_FOUND) → ∀ target,
      root.find? LOST_FOUND = some (.symlink target) → e.before.reachable target = true

/-- What `check_identity` sees of a file system before it creates the marker. -/
structure LooksBlank (w : World) (root : Dir) : Prop where
  names : ∀ name ∈ root.names, name = LOST_FOUND
  lostFound : ∀ node, root.find? LOST_FOUND = some node →
    node = .directory [] ∨ ∃ target, node = .symlink target ∧ w.reachable target = false

variable (c : Config)

/-- The device was chosen from a tree that `lsblk` printed in the run. -/
def ChosenIn (now : List DbEvent) (device : String) : Prop :=
  ∃ w tree, (⟨.lsblk, w, some (some tree)⟩ : DbEvent) ∈ now ∧ Chosen tree c.volumeId device

/-- `initdb` is about to run on a new volume: the run has listed the file system of its device,
created the marker there, and found no `pgdata`. -/
structure Initialising (now : List DbEvent) (w : World) (root : Dir) : Prop where
  device : ∃ device, ChosenIn c now device ∧ w.shown = some (w.attached device)
  created : ∃ w₁ names, (⟨.iterdir .mount, w₁, some names⟩ : DbEvent) ∈ now ∧
    (⟨.openMarker, w₁, some ()⟩ : DbEvent) ∈ now ∧ w₁.shown = w.shown ∧ w₁.root? = some root ∧
      LooksBlank w₁ root
  absent : ∃ w₂, (⟨.pathExists .data, w₂, some false⟩ : DbEvent) ∈ now ∧ w₂.shown = w.shown ∧
    w₂.node? .data = none
  content : ∃ marker, w.root? = some ((root.put MARKER marker).put PGDATA (.directory []))

/-! ### The policy -/

variable (V₀ : String → Volume) (earlier : List DbEvent)

structure Inv (es : List DbEvent) (w : World) : Prop where
  once : ∀ v, initdbs es v ≤ 1
  marked : ∀ v, 0 < initdbs es v → Marked (w.volumes v)
  held : Meets es → ∀ v, HeldData (V₀ v) → HeldData (w.volumes v) ∧ initdbs es v = 0

/-- What is known before a command runs, behind the runs of `earlier`. -/
def Guard (now : List DbEvent) (cmd : Command) (w : World) : Prop :=
  match cmd with
  | .mkfs device => ChosenIn c now device ∧ c.allowBlankVolumeInit = true ∧
      (w.volumes (w.attached device)).signatures = []
  | .mount device => ChosenIn c now device
  | .initdb => (∃ root, Initialising c now w root) ∧ ∃ v, w.shown = some v ∧
      Marked (w.volumes v) ∧ initdbs (earlier ++ now) v = 0 ∧
        (Meets (earlier ++ now) → ¬HeldData (V₀ v))
  | _ => True

variable {c V₀ earlier} {es : List DbEvent} {e : DbEvent} {w w' : World}

theorem Meets.left {es' : List DbEvent} (h : Meets (es ++ es')) : Meets es :=
  fun e he => h e (List.mem_append_left _ he)

theorem initdbs_append (es es' : List DbEvent) (v : String) :
    initdbs (es ++ es') v = initdbs es v + initdbs es' v := List.countP_append

/-- An event that is no `initdb` keeps the invariant when it keeps the volumes. -/
theorem Inv.keep {now : List DbEvent} (h : Inv V₀ (earlier ++ now) w)
    (he : ∀ v, initialises v e = false) (hkept : ∀ v, Kept (w.volumes v) (w'.volumes v)) :
    Inv V₀ (earlier ++ (now ++ [e])) w' := by
  rw [← List.append_assoc]
  generalize earlier ++ now = es at h ⊢
  have hcount : ∀ v, initdbs (es ++ [e]) v = initdbs es v := fun v => by
    rw [initdbs_append, initdbs, initdbs, List.countP_singleton, he v]
    rfl
  refine ⟨fun v => ?_, fun v hv => ?_, fun hmeets v hv => ?_⟩
  · rw [hcount]
    exact h.once v
  · rw [hcount] at hv
    exact (hkept v).1 (h.marked v hv)
  · obtain ⟨hheld, hzero⟩ := h.held hmeets.left v hv
    exact ⟨(hkept v).2 hheld, by rw [hcount, hzero]⟩

theorem kept_of_clusterWritten (h : ClusterWritten w w') (v : String) :
    Kept (w.volumes v) (w'.volumes v) := by
  rcases h with rfl | ⟨entries, entries', -, rfl⟩
  · exact .refl _
  · exact World.kept_volumes_put (by decide) v

/-- `initdb` is counted on the volume of the database. -/
theorem Inv.initdb {a : Option (commands.Answer .initdb)} {now : List DbEvent}
    (h : Inv V₀ (earlier ++ now) w) (hguard : Guard c V₀ earlier now .initdb w)
    (hwritten : ClusterWritten w w') :
    Inv V₀ (earlier ++ (now ++ [⟨.initdb, w, a⟩])) w' := by
  obtain ⟨-, v, hshown, hmarked, hzero, hheld⟩ := hguard
  have hcount : ∀ v', initdbs (earlier ++ (now ++ [⟨.initdb, w, a⟩])) v'
      = initdbs (earlier ++ now) v' + if v' = v then 1 else 0 := fun v' => by
    have hone : initialises v' ⟨.initdb, w, a⟩ = decide (v' = v) := by
      show decide (w.shown = some v') = _
      rw [hshown]
      simp [eq_comm]
    rw [← List.append_assoc, initdbs_append, initdbs, initdbs, List.countP_singleton, hone]
    simp
  have hkept := kept_of_clusterWritten hwritten
  refine ⟨fun v' => ?_, fun v' hv' => ?_, fun hmeets v' hv' => ?_⟩
  · rw [hcount]
    by_cases hv : v' = v
    · rw [if_pos hv, hv, hzero]
    · rw [if_neg hv]
      exact h.once v'
  · rw [hcount] at hv'
    by_cases hv : v' = v
    · exact (hkept v').1 (hv ▸ hmarked)
    · rw [if_neg hv] at hv'
      exact (hkept v').1 (h.marked v' hv')
  · rw [← List.append_assoc] at hmeets
    obtain ⟨hheld', hzero'⟩ := h.held hmeets.left v' hv'
    refine ⟨(hkept v').2 hheld', ?_⟩
    have hv : v' ≠ v := fun hv => hheld hmeets.left (hv ▸ hv')
    rw [hcount, if_neg hv, hzero']

/-- Only formatting may empty a volume, and it is guarded. -/
theorem kept_of_does {now : List DbEvent} (cmd : Command) {r : Answer cmd}
    (hguard : Guard c V₀ earlier now cmd w) (h : Does cmd w r w') (v : String) :
    Kept (w.volumes v) (w'.volumes v) := by
  have hsame : w' = w → Kept (w.volumes v) (w'.volumes v) := fun h => h ▸ .refl _
  -- formatted, whether or not `mkfs` succeeded: the volume had no signature to lose
  have hformat : ∀ device volume, (w.volumes (w.attached device)).signatures = [] →
      w' = w.setVolume (w.attached device) volume → Kept (w.volumes v) (w'.volumes v) := by
    rintro device volume hblank rfl
    rw [World.volumes_setVolume]
    split_ifs with hv
    · exact hv ▸ kept_of_signatures_eq_nil hblank
    · exact .refl _
  match cmd, r, h with
  | .check _, _, h | .lsblk, _, h | .isBlockDevice _, _, h | .blkid _, _, h | .fsyncMarker, _, h =>
    exact hsame h
  | .isSymlink _, _, h | .isDirectory _, _, h | .isFile _, _, h | .pathExists _, _, h |
      .iterdir _, _, h | .readText _, _, h | .stat _, _, h | .findmnt _, _, h |
      .readlink _, _, h | .find, _, h | .wipefs _, _, h => exact hsame h.1
  | .mkdir, false, h | .mount _, false, h | .installData, false, h => exact hsame h
  | .mkdir, true, h =>
    obtain rfl := h
    rw [World.makeMountDir]
    split <;> exact .refl _
  | .mkfs device, true, h => exact hformat device _ hguard.2.2 h
  | .mkfs device, false, h =>
    obtain ⟨volume', -, h⟩ := h
    exact hformat device _ hguard.2.2 h
  | .mount device, true, h =>
    obtain ⟨root, others, options, -, rfl⟩ := h
    exact .refl _
  | .openMarker, _, h => exact h.2 ▸ World.kept_volumes_put (by decide) v
  | .chmodMarker mode, _, h =>
    obtain ⟨content, uid, mode', -, rfl⟩ := h
    exact World.kept_volumes_put (by decide) v
  | .writeMarker content, _, h =>
    obtain ⟨content', uid, mode, -, rfl⟩ := h
    exact World.kept_volumes_put (by decide) v
  | .installData, true, h =>
    obtain rfl := h
    split_ifs
    · exact World.kept_volumes_put (by decide) v
    · exact .refl _
  | .initdb, _, h | .cluster _, _, h => exact kept_of_clusterWritten h v

theorem kept_of_breaks {now : List DbEvent} {cmd : Command} (hguard : Guard c V₀ earlier now cmd w)
    (h : Breaks cmd w w') (v : String) : Kept (w.volumes v) (w'.volumes v) := by
  rcases h with rfl | ⟨r, hdoes⟩ | hpart
  · exact .refl _
  · exact kept_of_does cmd hguard hdoes v
  · match cmd, hpart with
    | .mkfs device, ⟨volume', hvolume', h⟩ =>
      exact kept_of_does (.mkfs device) (r := false) hguard ⟨volume', hvolume', h⟩ v
    | .writeMarker content, ⟨k, content', uid, mode, _, h⟩ =>
      exact h ▸ World.kept_volumes_put (by decide) v

theorem clusterWritten_of_breaks (h : Breaks .initdb w w') : ClusterWritten w w' := by
  rcases h with rfl | ⟨_, hdoes⟩ | hpart
  · exact .inl rfl
  · exact hdoes
  · exact hpart.elim

variable (c V₀ earlier) in
/-- What every command of a run keeps. -/
def policy : Policy commands where
  Guard := Guard c V₀ earlier
  Inv now w := Inv V₀ (earlier ++ now) w
  keeps {now cmd w r w'} hinv hguard hdoes := by
    by_cases hinit : (cmd : Command) = .initdb
    · subst hinit
      exact hinv.initdb hguard hdoes
    · refine hinv.keep (fun v => ?_) (kept_of_does cmd hguard hdoes)
      cases (cmd : Command) <;> first | rfl | exact absurd rfl hinit
  keepsBroken {now cmd w w'} hinv hguard hbreaks := by
    by_cases hinit : (cmd : Command) = .initdb
    · subst hinit
      exact hinv.initdb hguard (clusterWritten_of_breaks hbreaks)
    · refine hinv.keep (fun v => ?_) (kept_of_breaks hguard hbreaks)
      cases (cmd : Command) <;> first | rfl | exact absurd rfl hinit

end DbBootstrap
