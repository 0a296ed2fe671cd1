/-
Preparing the database volume destroys nothing.

Over any sequence of runs, each of which may die or be killed anywhere, `mkfs.ext4` and `initdb`
run only where nothing can be lost.

* `Reads`, `Writes` — parts of the script that run no `initdb`;
* `obeys_checkIdentity`, `obeys_createCluster`, `obeys_prepare` — the script obeys the policy,
  function by function;
* `History`, `Preserves`, `preserves` — the volumes are safe over all runs;
* `initialises_dangling` — except where `lost+found` is a link that leads nowhere.
-/
import LogStack.VolumePolicy

open Script

namespace DbBootstrap

variable {c : Config} {V₀ : String → Volume} {earlier es : List DbEvent} {e : DbEvent}
  {w w' : World}

/-! ### Parts that only read -/

/-- Events among which there is no `initdb`. -/
def Quiet (now now' : List DbEvent) : Prop :=
  ∃ es, now' = now ++ es ∧ ∀ v, initdbs es v = 0

namespace Quiet

variable {now now' now'' : List DbEvent}

theorem refl (now : List DbEvent) : Quiet now now := ⟨[], by simp, fun _ => rfl⟩

theorem trans (h : Quiet now now') (h' : Quiet now' now'') : Quiet now now'' := by
  obtain ⟨es, rfl, hes⟩ := h
  obtain ⟨es', rfl, hes'⟩ := h'
  exact ⟨es ++ es', by rw [List.append_assoc], fun v => by rw [initdbs_append, hes, hes']⟩

theorem concat (now : List DbEvent) (he : ∀ v, initialises v e = false) :
    Quiet now (now ++ [e]) :=
  ⟨[e], rfl, fun v => by rw [initdbs, List.countP_singleton, he v]; rfl⟩

theorem mem (h : Quiet now now') (he : e ∈ now) : e ∈ now' := by
  obtain ⟨es, rfl, -⟩ := h
  exact List.mem_append_left _ he

theorem chosenIn {device : String} (h : Quiet now now') (hd : ChosenIn c now device) :
    ChosenIn c now' device := by
  obtain ⟨w, tree, hmem, htree⟩ := hd
  exact ⟨w, tree, h.mem hmem, htree⟩

theorem initdbs_eq (h : Quiet now now') (v : String) :
    initdbs (earlier ++ now') v = initdbs (earlier ++ now) v := by
  obtain ⟨es, rfl, hes⟩ := h
  rw [← List.append_assoc, initdbs_append, hes, Nat.add_zero]

theorem meets (h : Quiet now now') (hmeets : Meets (earlier ++ now')) : Meets (earlier ++ now) := by
  obtain ⟨es, rfl, -⟩ := h
  rw [← List.append_assoc] at hmeets
  exact hmeets.left

end Quiet

section Reading

variable {α β : Type} {now : List DbEvent} {R : α → Prop}
  {Q : List DbEvent → β → World → Prop}

/-- The world is as before, and `R` holds of the result. -/
def Reading (now : List DbEvent) (w : World) (R : α → Prop) :
    List DbEvent → α → World → Prop :=
  fun now' a w' => Quiet now now' ∧ w' = w ∧ R a

variable (c V₀ earlier) in
/-- A part of a script that reads, with what it finds. -/
def Reads (now : List DbEvent) (w : World) (p : DbScript α) (R : α → Prop) : Prop :=
  Obeys (policy c V₀ earlier) (Reading now w R) p now w

theorem Reads.andThen {p : DbScript α} {f : α → DbScript β} (h : Reads c V₀ earlier now w p R)
    (hf : ∀ a now', Quiet now now' → R a → Obeys (policy c V₀ earlier) Q (f a) now' w) :
    Obeys (policy c V₀ earlier) Q (p >>= f) now w := by
  refine obeys_bind (Obeys.mono h fun now' a w' ha => ?_)
  obtain ⟨hquiet, rfl, hR⟩ := ha
  exact hf a now' hquiet hR

theorem Reads.bind {p : DbScript α} {f : α → DbScript β} {R' : β → Prop}
    (h : Reads c V₀ earlier now w p R)
    (hf : ∀ a now', R a → Reads c V₀ earlier now' w (f a) R') :
    Reads c V₀ earlier now w (p >>= f) R' :=
  h.andThen fun a now' hquiet hR => Obeys.mono (hf a now' hR) fun _ _ _ h' =>
    ⟨hquiet.trans h'.1, h'.2⟩

theorem Reads.mono {p : DbScript α} {R' : α → Prop} (h : Reads c V₀ earlier now w p R)
    (hR : ∀ a, R a → R' a) : Reads c V₀ earlier now w p R' :=
  Obeys.mono h fun _ a _ h => ⟨h.1, h.2.1, hR a h.2.2⟩

theorem reads_command (cmd : Command) {R : Answer cmd → Prop}
    (hguard : Guard c V₀ earlier now cmd w) (hquiet : cmd ≠ .initdb)
    (h : ∀ r w', Does cmd w r w' → w' = w ∧ R r) :
    Reads c V₀ earlier now w (command (S := commands) cmd) R := by
  refine obeys_command hguard fun r w' hdoes _ => ⟨.concat now fun v => ?_, h r w' hdoes⟩
  cases cmd <;> first | rfl | exact absurd rfl hquiet

theorem reads_pure {a : α} (h : R a) :
    Reads c V₀ earlier now w (Pure.pure a : DbScript α) R :=
  obeys_pure ⟨.refl now, rfl, h⟩

theorem reads_require {p : Prop} [Decidable p] :
    Reads c V₀ earlier now w (require p : DbScript Unit) fun _ => p :=
  obeys_require fun hp => ⟨.refl now, rfl, hp⟩

theorem reads_isSymlink (p : Place) :
    Reads c V₀ earlier now w (isSymlink p) (· = w.isSymlink p) :=
  reads_command _ trivial (fun h => by cases h) fun _ _ h => h

theorem reads_isDirectory (p : Place) :
    Reads c V₀ earlier now w (isDirectory p) (· = w.isDirectory p) :=
  reads_command _ trivial (fun h => by cases h) fun _ _ h => h

theorem reads_isFile (p : Place) :
    Reads c V₀ earlier now w (isFile p) (· = w.isFile p) :=
  reads_command _ trivial (fun h => by cases h) fun _ _ h => h

theorem reads_readText (p : Place) :
    Reads c V₀ earlier now w (readText p) fun _ => True :=
  reads_command _ trivial (fun h => by cases h) fun _ _ h => ⟨h.1, trivial⟩

theorem reads_stat (p : Place) :
    Reads c V₀ earlier now w (stat p) fun _ => True :=
  reads_command _ trivial (fun h => by cases h) fun _ _ h => ⟨h.1, trivial⟩

theorem reads_findmnt (target : String) :
    Reads c V₀ earlier now w (findmnt target) (· = w.mountsAt target) :=
  reads_command _ trivial (fun h => by cases h) fun _ _ h => h

theorem reads_readlink (path : String) :
    Reads c V₀ earlier now w (readlink path) (· = w.canonical path) :=
  reads_command _ trivial (fun h => by cases h) fun _ _ h => h

theorem reads_check (p : Precondition) :
    Reads c V₀ earlier now w (check p) fun _ => True :=
  reads_command _ trivial (fun h => by cases h) fun _ _ h => ⟨h, trivial⟩

theorem reads_requireAll (ps : List Precondition) :
    Reads c V₀ earlier now w (requireAll ps) fun _ => True := by
  induction ps generalizing now with
  | nil => exact reads_pure trivial
  | cons p ps ih =>
    rw [requireAll]
    exact (reads_check p).bind fun _ _ _ => reads_require.bind fun _ _ _ => ih

theorem reads_column (target : String) {α : Type} (f : Mount → α) :
    Reads c V₀ earlier now w (column target f) fun a => ∃ m, w.mountsAt target = [m] ∧ a = f m := by
  refine (reads_findmnt target).bind fun ms now' hms => ?_
  match ms, hms with
  | [m], hms => exact reads_pure ⟨m, hms.symm, rfl⟩
  | [], _ => trivial
  | _ :: _ :: _, _ => trivial

theorem reads_canonicalSources (ms : List Mount) :
    Reads c V₀ earlier now w (canonicalSources ms) fun _ => True := by
  induction ms generalizing now with
  | nil => exact reads_pure trivial
  | cons m ms ih =>
    rw [canonicalSources]
    exact (reads_readlink m.source).bind fun _ _ _ => ih.bind fun _ _ _ =>
      reads_pure trivial

/-- **A verified mount shows the volume of the device.** -/
theorem reads_verifyMount (device : String) :
    Reads c V₀ earlier now w (verifyMount device) fun _ => w.shown = some (w.attached device) := by
  refine (reads_isSymlink .mount).bind fun _ _ _ => reads_require.bind fun _ _ _ =>
    (reads_isDirectory .mount).bind fun _ _ _ => reads_require.bind fun _ _ _ =>
    (reads_column MOUNT _).bind fun source _ hsource =>
    (reads_column MOUNT _).bind fun _ _ _ => (reads_column MOUNT _).bind fun _ _ _ =>
    (reads_readlink source).bind fun path _ hpath => reads_require.bind fun _ _ hdevice => ?_
  have hshown : w.shown = some (w.attached device) := by
    obtain ⟨m, hm, rfl⟩ := hsource
    rw [World.shown, hm, List.head?_cons, Option.map_some, ← hpath, hdevice]
  exact reads_require.bind fun _ _ _ => reads_require.bind fun _ _ _ =>
    (reads_findmnt _).bind fun atRoot _ _ => (reads_canonicalSources atRoot).bind fun _ _ _ =>
    reads_require.mono fun _ _ => hshown

end Reading

/-! ### Parts that write -/

section Writing

variable {α β : Type} {now : List DbEvent} {Q : List DbEvent → β → World → Prop}

/-- A command under its guard. -/
theorem obeys_step (cmd : Command) {f : Answer cmd → DbScript β}
    (hguard : Guard c V₀ earlier now cmd w)
    (h : ∀ r w', Does cmd w r w' →
      Obeys (policy c V₀ earlier) Q (f r) (now ++ [⟨cmd, w, some r⟩]) w') :
    Obeys (policy c V₀ earlier) Q (command (S := commands) cmd >>= f) now w :=
  obeys_bind (obeys_command hguard fun r w' hdoes _ => h r w' hdoes)

theorem quiet_step {cmd : Command} {r : Answer cmd} (hquiet : cmd ≠ .initdb) :
    Quiet now (now ++ [(⟨cmd, w, some r⟩ : DbEvent)]) := by
  refine .concat now fun v => ?_
  cases cmd <;> first | rfl | exact absurd rfl hquiet

/-- What a part leaves behind that writes somewhere, without `initdb`. -/
def Writes (now : List DbEvent) (R : α → World → Prop) : List DbEvent → α → World → Prop :=
  fun now' a w' => Quiet now now' ∧ R a w'

theorem obeys_fileSystemType (device : String) :
    Reads c V₀ earlier now w (fileSystemType device) fun _ => True := by
  refine Reads.bind (reads_command (.blkid device) (R := fun _ => True) trivial
    (fun h => by cases h) fun _ _ h => ⟨h, trivial⟩) fun answer now' _ => ?_
  obtain ⟨code, fs⟩ := answer
  dsimp only
  split_ifs
  · exact reads_pure trivial
  · exact reads_require.bind fun _ _ _ => reads_pure trivial

theorem reads_wipefs (device : String) :
    Reads c V₀ earlier now w (wipefs device) fun r => ∀ signatures, r = some signatures →
      signatures = (w.volumes (w.attached device)).signatures :=
  reads_command _ trivial (fun h => by cases h) fun _ _ h => h

/-- **Only a device without signatures is formatted**, and only where that is allowed. -/
theorem obeys_formatBlank {device : String} (hdevice : ChosenIn c now device) :
    Obeys (policy c V₀ earlier) (Writes now fun _ _ => True) (formatBlank c device) now w := by
  refine (obeys_fileSystemType device).andThen fun fs now₁ hquiet₁ _ => ?_
  split_ifs
  · refine reads_require.andThen fun _ now₂ hquiet₂ hallow =>
      (reads_wipefs device).andThen fun signatures now₃ hquiet₃ hsignatures =>
      reads_require.andThen fun _ now₄ hquiet₄ hnone => ?_
    have hquiet := ((hquiet₁.trans hquiet₂).trans hquiet₃).trans hquiet₄
    refine obeys_step (.mkfs device) ⟨hquiet.chosenIn hdevice, hallow,
      (hsignatures [] hnone).symm⟩ fun (made : Bool) w' _ => ?_
    exact obeys_require fun _ => ⟨hquiet.trans (quiet_step fun h => by cases h), trivial⟩
  · exact obeys_require fun _ => ⟨hquiet₁, trivial⟩

/-- **Behind `prepare_mount` the volume of the device is seen.** -/
theorem obeys_prepareMount {device : String} (hdevice : ChosenIn c now device) :
    Obeys (policy c V₀ earlier) (Writes now fun _ _ => True) (prepareMount c device) now w := by
  refine (reads_isSymlink .mount).andThen fun _ now₁ hquiet₁ _ =>
    reads_require.andThen fun _ now₂ hquiet₂ _ => ?_
  refine obeys_step .mkdir trivial fun (made : Bool) w₁ _ => ?_
  refine reads_require.andThen fun _ now₃ hquiet₃ _ =>
    (reads_findmnt MOUNT).andThen fun ms now₄ hquiet₄ _ => ?_
  have hquiet : Quiet now now₄ := (((hquiet₁.trans hquiet₂).trans
    (quiet_step fun h => by cases h)).trans hquiet₃).trans hquiet₄
  split_ifs
  · exact Obeys.mono (reads_verifyMount device) fun _ _ _ h => ⟨hquiet.trans h.1, trivial⟩
  · refine Reads.andThen (reads_command .find (R := fun _ => True) trivial
      (fun h => by cases h) fun _ _ h => ⟨h.1, trivial⟩) fun _ now₅ hquiet₅ _ =>
      reads_require.andThen fun _ now₆ hquiet₆ _ => ?_
    have hquiet' := (hquiet.trans hquiet₅).trans hquiet₆
    refine obeys_bind ((obeys_formatBlank (hquiet'.chosenIn hdevice)).mono
      fun now₇ _ w₂ hformat => ?_)
    have hquiet'' := hquiet'.trans hformat.1
    refine obeys_step (.mount device) (hquiet''.chosenIn hdevice)
      fun (mounted : Bool) w₃ _ => ?_
    refine reads_require.andThen fun _ now₈ hquiet₈ _ => ?_
    exact Obeys.mono (reads_verifyMount device) fun _ _ _ h => ⟨((hquiet''.trans
      (quiet_step fun h => by cases h)).trans hquiet₈).trans h.1, trivial⟩

/-! ### The marker -/

theorem LooksBlank.blank {root : Dir} {names : List String} (h : LooksBlank w root)
    (hroot : w.root? = some root) (hmeets : Meets es)
    (hlisted : (⟨.iterdir .mount, w, some names⟩ : DbEvent) ∈ es) : Blank root := by
  intro name node hnode
  obtain rfl := h.names name (Dir.mem_names_of_find? hnode)
  refine ⟨rfl, (h.lostFound node hnode).resolve_right ?_⟩
  rintro ⟨target, rfl, hdangling⟩
  have hreachable := hmeets _ hlisted rfl root hroot h.names target hnode
  exact Bool.false_ne_true (hdangling.symm.trans hreachable)

/-- The check finds nothing but what looks like an empty `lost+found`. -/
theorem obeys_checkBlank {v : String} (hshown : w.shown = some v) :
    Obeys (policy c V₀ earlier) (fun now' _ w' => Quiet now now' ∧ w' = w ∧ ∃ root names,
      w.root? = some root ∧ LooksBlank w root ∧
        (⟨.iterdir .mount, w, some names⟩ : DbEvent) ∈ now') checkBlank now w := by
  refine obeys_step (.iterdir .mount) trivial fun (names : List String) w' hdoes => ?_
  obtain ⟨rfl, root, hnode, rfl⟩ := hdoes
  have hroot : w'.root? = some root := by
    rw [World.node?, hshown] at hnode
    obtain ⟨root', hroot', heq⟩ := Option.map_eq_some_iff.mp hnode
    rw [hroot', Node.directory.inj heq]
  have hlisted : Quiet now (now ++ [(⟨.iterdir .mount, w', some (Dir.names root)⟩ : DbEvent)]) :=
    quiet_step fun h => by cases h
  have hmem : (⟨.iterdir .mount, w', some (Dir.names root)⟩ : DbEvent) ∈
      now ++ [(⟨.iterdir .mount, w', some (Dir.names root)⟩ : DbEvent)] :=
    List.mem_concat_self
  have hfound : ∀ node, Dir.find? root LOST_FOUND = some node → w'.node? .lostFound = some node :=
    fun node hnode => by rw [World.node?, hroot, Option.bind_some, hnode]
  have hdone : ∀ now',
      Quiet (now ++ [(⟨.iterdir .mount, w', some (Dir.names root)⟩ : DbEvent)]) now' →
      LooksBlank w' root → Quiet now now' ∧ w' = w' ∧ ∃ root names, w'.root? = some root ∧
        LooksBlank w' root ∧ (⟨.iterdir .mount, w', some names⟩ : DbEvent) ∈ now' :=
    fun now' hquiet hblank => ⟨hlisted.trans hquiet, rfl, root, (Dir.names root), hroot, hblank,
      hquiet.mem hmem⟩
  -- the only name that may stand there is `lost+found`; `pathExists` follows a link of that name
  refine reads_require.andThen fun _ now₁ hquiet₁ hnames =>
    Reads.andThen (reads_command (.pathExists .lostFound)
      (R := (· = w'.pathExists .lostFound)) trivial (fun h => by cases h) fun _ _ h => h)
      fun there now₂ hquiet₂ hthere => ?_
  split_ifs with hyes
  · refine (reads_isSymlink .lostFound).andThen fun _ now₃ hquiet₃ _ =>
      reads_require.andThen fun _ now₄ hquiet₄ _ => ?_
    refine obeys_step (.iterdir .lostFound) trivial fun (inner : List String) w'' hdoes => ?_
    obtain ⟨rfl, entries, hentries, rfl⟩ := hdoes
    refine obeys_require fun hempty => hdone _ ((((hquiet₁.trans hquiet₂).trans hquiet₃).trans
      hquiet₄).trans (quiet_step fun h => by cases h)) ⟨hnames, fun node hnode => .inl ?_⟩
    rw [hfound node hnode] at hentries
    rw [Option.some_inj.mp hentries, List.map_eq_nil_iff.mp hempty]
  · refine obeys_pure (hdone _ (hquiet₁.trans hquiet₂) ⟨hnames, fun node hnode => .inr ?_⟩)
    rw [hthere, World.pathExists, hfound node hnode] at hyes
    -- a link that leads nowhere does not exist for `pathExists`: this is the case that `Meets`
    -- excludes
    cases node with
    | file content uid mode => exact absurd rfl hyes
    | directory entries => exact absurd rfl hyes
    | symlink target => exact ⟨target, rfl, Bool.not_eq_true _ ▸ hyes⟩

/-- The marker is created, given its mode and written. -/
theorem obeys_createMarker (T : MarkerText) {v : String} {root : Dir} (hshown : w.shown = some v)
    (hroot : w.root? = some root) :
    Obeys (policy c V₀ earlier) (fun now' _ w' => Quiet now now' ∧
      (⟨.openMarker, w, some ()⟩ : DbEvent) ∈ now' ∧ w'.shown = some v ∧
        w'.attached = w.attached ∧ ∃ marker, w'.root? = some (root.put MARKER marker))
      (createMarker T c) now w := by
  refine obeys_step .openMarker trivial fun (answer : Unit) w₁ hdoes => ?_
  obtain ⟨-, rfl⟩ := hdoes
  have hopened : (⟨.openMarker, w, some ()⟩ : DbEvent) ∈
      now ++ [(⟨.openMarker, w, some answer⟩ : DbEvent)] :=
    List.mem_concat_self
  have hquiet : Quiet now (now ++ [(⟨.openMarker, w, some answer⟩ : DbEvent)]) :=
    quiet_step fun h => by cases h
  generalize now ++ [(⟨.openMarker, w, some answer⟩ : DbEvent)] = now₁ at hopened hquiet ⊢
  refine obeys_step (.chmodMarker 0o600) trivial fun _ w₂ hdoes => ?_
  obtain ⟨content, uid, mode, -, rfl⟩ := hdoes
  refine obeys_step (.writeMarker _) trivial fun _ w₃ hdoes => ?_
  obtain ⟨content', uid', mode', -, rfl⟩ := hdoes
  refine ⟨trivial, fun _ w₄ hdoes _ => ?_⟩
  obtain rfl := hdoes
  refine ⟨hquiet.trans ?rest, Quiet.mem ?rest hopened, by simpa using hshown, by simp,
    .file (T.write c.toIdentity) uid' mode', ?_⟩
  case rest =>
    exact ((quiet_step fun h => by cases h).trans (quiet_step fun h => by cases h)).trans
      (quiet_step fun h => by cases h)
  -- the three writes to the marker leave one entry, the last
  have h₁ := World.root?_put MARKER (.file [] 0 0o600) hshown hroot
  have h₂ := World.root?_put MARKER (.file content uid 0o600)
    (by simpa using hshown) h₁
  rw [World.root?_put _ _ (by simpa using hshown) h₂, Dir.put_put, Dir.put_put]

theorem reads_checkMarker (T : MarkerText) :
    Reads c V₀ earlier now w (checkMarker T c) fun _ => True :=
  (reads_readText .marker).bind fun _ _ _ => reads_require.bind fun _ _ _ =>
    (reads_stat .marker).bind fun _ _ _ => reads_require.mono fun _ _ => trivial

variable (c V₀ earlier) in
/-- The run has just created the marker on a file system that looked blank. -/
structure FreshlyMarked (now : List DbEvent) (w : World) (v : String) (root : Dir) : Prop where
  created : ∃ w₁ names, (⟨.iterdir .mount, w₁, some names⟩ : DbEvent) ∈ now ∧
    (⟨.openMarker, w₁, some ()⟩ : DbEvent) ∈ now ∧ w₁.shown = some v ∧ w₁.root? = some root ∧
      LooksBlank w₁ root
  content : ∃ marker, w.root? = some (root.put MARKER marker)
  first : initdbs (earlier ++ now) v = 0
  held : Meets (earlier ++ now) → ¬HeldData (V₀ v)

theorem FreshlyMarked.quiet {now' : List DbEvent} {v : String} {root : Dir}
    (h : FreshlyMarked V₀ earlier now w v root) (hquiet : Quiet now now') :
    FreshlyMarked V₀ earlier now' w v root := by
  obtain ⟨⟨w₁, names, hlisted, hopened, hrest⟩, hcontent, hfirst, hheld⟩ := h
  exact ⟨⟨w₁, names, hquiet.mem hlisted, hquiet.mem hopened, hrest⟩, hcontent,
    by rw [hquiet.initdbs_eq, hfirst], fun hmeets => hheld (hquiet.meets hmeets)⟩

/-- **An identity is new only where the run has marked a file system that looked blank**, on
which `initdb` has never been attempted. -/
theorem obeys_checkIdentity (T : MarkerText) {prepare : Bool} {v : String}
    (hinv : Inv V₀ (earlier ++ now) w) (hshown : w.shown = some v) :
    Obeys (policy c V₀ earlier) (fun now' result w' => Quiet now now' ∧ w'.shown = some v ∧
      w'.attached = w.attached ∧
        (result = .new → ∃ root, FreshlyMarked V₀ earlier now' w' v root))
      (checkIdentity T c prepare) now w := by
  refine (reads_isSymlink .marker).andThen fun _ now₁ hquiet₁ hlink =>
    reads_require.andThen fun _ now₂ hquiet₂ hnolink =>
    Reads.andThen (reads_command (.pathExists .marker) (R := (· = w.pathExists .marker))
      trivial (fun h => by cases h) fun _ _ h => h) fun there now₃ hquiet₃ hthere => ?_
  have hquiet := (hquiet₁.trans hquiet₂).trans hquiet₃
  split_ifs with hmissing
  · -- a name that is neither a link nor leads to something is not there
    have hnone : w.node? .marker = none := by
      rw [hlink, World.isSymlink] at hnolink
      rw [hthere, World.pathExists] at hmissing
      cases hnode : w.node? .marker with
      | none => rfl
      | some node =>
        rw [hnode] at hnolink hmissing
        cases node with
        | file content uid mode => exact absurd hmissing.symm Bool.false_ne_true
        | directory entries => exact absurd hmissing.symm Bool.false_ne_true
        | symlink target => exact absurd hnolink.symm Bool.false_ne_true
    refine reads_require.andThen fun _ now₄ hquiet₄ _ => ?_
    refine obeys_bind ((obeys_checkBlank hshown).mono fun now₅ _ w₅ hchecked => ?_)
    obtain ⟨hquiet₅, rfl, root, names, hroot, hblank, hlisted⟩ := hchecked
    refine obeys_bind ((obeys_createMarker T hshown hroot).mono fun now₆ _ w₆ hcreated => ?_)
    obtain ⟨hquiet₆, hopened, hshown₆, hattached₆, hcontent⟩ := hcreated
    refine (reads_checkMarker T).andThen fun _ now₇ hquiet₇ _ => ?_
    -- nothing since the start of the run has mounted, formatted or initialised
    have hall : Quiet now now₇ :=
      ((((hquiet.trans hquiet₄).trans hquiet₅).trans hquiet₆).trans hquiet₇)
    obtain ⟨others, hvolume⟩ := World.volumes_of_root? hshown hroot
    refine obeys_pure ⟨hall, hshown₆, hattached₆, fun _ => ⟨root,
      ⟨w₅, names, hquiet₇.mem (hquiet₆.mem hlisted), hquiet₇.mem hopened, hshown, hroot, hblank⟩,
      hcontent, ?_, fun hmeets hheld => ?_⟩⟩
    · rw [hall.initdbs_eq]
      by_contra hne
      have hmarked := hinv.marked v (Nat.pos_of_ne_zero hne)
      rw [hvolume] at hmarked
      rw [World.node?, hroot, Option.bind_some] at hnone
      exact hmarked hnone
    · have hdata := (hinv.held (hall.meets hmeets) v hheld).1
      rw [hvolume] at hdata
      exact hdata (hblank.blank hroot hmeets
        (List.mem_append_right _ (hquiet₇.mem (hquiet₆.mem hlisted))))
  · refine (reads_checkMarker T).andThen fun _ now₄ hquiet₄ _ => obeys_pure ⟨hquiet.trans hquiet₄,
      hshown, rfl, fun h => ?_⟩
    cases h

/-! ### The cluster -/

theorem FreshlyMarked.data_none {v : String} {root : Dir}
    (h : FreshlyMarked V₀ earlier now w v root) : w.node? .data = none := by
  obtain ⟨⟨w₁, names, -, -, -, -, hblank⟩, ⟨marker, hroot⟩, -, -⟩ := h
  rw [World.node?, hroot, Option.bind_some, Dir.find?_put_of_ne (by decide)]
  cases hfind : root.find? PGDATA with
  | none => rfl
  | some node =>
    exact absurd (hblank.names PGDATA (Dir.mem_names_of_find? hfind)) (by decide)

/-- **`initdb` runs only on a fresh file system of the device.** -/
theorem obeys_createCluster {identity : Prepared} {v device : String}
    (hdevice : ChosenIn c now device) (hattached : w.attached device = v)
    (hshown : w.shown = some v)
    (hnew : identity = .new → ∃ root, FreshlyMarked V₀ earlier now w v root) :
    Obeys (policy c V₀ earlier) (fun _ _ _ => True) (createCluster identity) now w := by
  refine obeys_step (.pathExists .data) trivial fun (there : Bool) w' hdoes => ?_
  obtain ⟨rfl, hthere⟩ := hdoes
  split_ifs with hmissing
  · refine obeys_bind (obeys_require fun hidentity => ?_)
    obtain ⟨root, hfresh⟩ := hnew hidentity
    have htested : (⟨.pathExists .data, w', some false⟩ : DbEvent) ∈
        now ++ [(⟨.pathExists .data, w', some there⟩ : DbEvent)] := by
      rw [hmissing]
      exact List.mem_concat_self
    have hquiet : Quiet now (now ++ [(⟨.pathExists .data, w', some there⟩ : DbEvent)]) :=
      quiet_step fun h => by cases h
    generalize now ++ [(⟨.pathExists .data, w', some there⟩ : DbEvent)] = now₁ at htested hquiet ⊢
    have hfresh₁ := hfresh.quiet hquiet
    refine obeys_step .installData trivial fun (installed : Bool) w'' hdoes => ?_
    have hquiet₂ : Quiet now₁ (now₁ ++ [(⟨.installData, w', some installed⟩ : DbEvent)]) :=
      quiet_step fun h => by cases h
    have hfresh₂ := hfresh₁.quiet hquiet₂
    generalize now₁ ++ [(⟨.installData, w', some installed⟩ : DbEvent)] = now₂ at hquiet₂ hfresh₂ ⊢
    refine obeys_bind (obeys_require fun hinstalled => ?_)
    obtain rfl : w'' = w'.put PGDATA (.directory []) := by
      rw [hinstalled] at hdoes
      refine Eq.trans hdoes ?_
      rw [hfresh.data_none]
      rfl
    obtain ⟨⟨w₁, names, hlisted, hopened, hshown₁, hroot₁, hblank⟩, ⟨marker, hroot⟩,
      hfirst, hheld⟩ :=
      hfresh₂
    have hroot' := World.root?_put PGDATA (.directory []) hshown hroot
    obtain ⟨others, hvolume⟩ := World.volumes_of_root? (by simpa using hshown) hroot'
    -- the marker survives the installation of the data directory
    have hmarked : Marked ((w'.put PGDATA (.directory [])).volumes v) := by
      rw [hvolume]
      show Dir.find? _ MARKER ≠ none
      rw [Dir.find?_put_of_ne (by decide), Dir.find?_put_self]
      exact Option.some_ne_none marker
    refine obeys_step .initdb ⟨⟨root, ?_, ?_, ?_, marker, hroot'⟩, v,
      by simpa using hshown, hmarked, hfirst, hheld⟩ fun (created : Bool) _ _ =>
      obeys_require fun _ => trivial
    · exact ⟨device, (hquiet.trans hquiet₂).chosenIn hdevice, by
        rw [World.shown_put, World.attached_put, hattached, hshown]⟩
    · exact ⟨w₁, names, hlisted, hopened, by rw [World.shown_put, hshown₁, hshown], hroot₁, hblank⟩
    · exact ⟨w', hquiet₂.mem htested, by rw [World.shown_put], hfresh.data_none⟩
  · exact trivial

theorem Inv.quiet {now' : List DbEvent} (h : Inv V₀ (earlier ++ now) w) (hquiet : Quiet now now') :
    Inv V₀ (earlier ++ now') w := by
  refine ⟨fun v => ?_, fun v hv => ?_, fun hmeets v hv => ?_⟩
  · rw [hquiet.initdbs_eq]
    exact h.once v
  · rw [hquiet.initdbs_eq] at hv
    exact h.marked v hv
  · rw [hquiet.initdbs_eq]
    exact h.held (hquiet.meets hmeets) v hv

theorem obeys_verifyCluster (T : MarkerText) {device : String}
    (hinv : Inv V₀ (earlier ++ now) w) :
    Obeys (policy c V₀ earlier) (fun _ _ _ => True) (verifyCluster T c device) now w := by
  refine (reads_verifyMount device).andThen fun _ now₁ hquiet₁ hshown =>
    (reads_isSymlink .data).andThen fun _ now₂ hquiet₂ _ =>
    reads_require.andThen fun _ now₃ hquiet₃ _ =>
    (reads_isFile .pgVersion).andThen fun _ now₄ hquiet₄ _ =>
    reads_require.andThen fun _ now₅ hquiet₅ _ =>
    (reads_readText .pgVersion).andThen fun _ now₆ hquiet₆ _ =>
    reads_require.andThen fun _ now₇ hquiet₇ _ => ?_
  have hquiet := (((((hquiet₁.trans hquiet₂).trans hquiet₃).trans hquiet₄).trans hquiet₅).trans
    hquiet₆).trans hquiet₇
  refine obeys_bind ((obeys_checkIdentity T (hinv.quiet hquiet) hshown).mono fun _ _ _ _ => ?_)
  exact (reads_check .controldata).andThen fun _ _ _ _ => obeys_require fun _ => trivial

theorem obeys_configureCluster :
    Obeys (policy c V₀ earlier) (fun _ _ _ => True) configureCluster now w := by
  refine obeys_step (.cluster .config) trivial fun (_ : Bool) _ _ =>
    obeys_bind (obeys_require fun _ => ?_)
  refine (reads_check .privateSocketDir).andThen fun _ _ _ _ =>
    obeys_bind (obeys_require fun _ => ?_)
  refine obeys_step (.cluster .start) trivial fun (_ : Bool) _ _ =>
    obeys_bind (obeys_require fun _ => ?_)
  have hstopping : ∀ now w, Obeys (policy c V₀ earlier) (fun _ _ _ => True) dieStopping now w :=
    fun now w => obeys_step (.cluster .stop) trivial fun (_ : Bool) _ _ => trivial
  refine obeys_step (.cluster .roles) trivial fun (_ : Bool) _ _ => ?_
  split_ifs
  · refine obeys_step (.cluster .stop) trivial fun (_ : Bool) _ _ => ?_
    split_ifs
    · exact trivial
    · exact hstopping _ _
  · exact hstopping _ _

theorem obeys_prepareCluster (T : MarkerText) {device : String}
    (hinv : Inv V₀ (earlier ++ now) w) (hdevice : ChosenIn c now device) :
    Obeys (policy c V₀ earlier) (fun _ _ _ => True) (prepareCluster T c device) now w := by
  refine (reads_verifyMount device).andThen fun _ now₁ hquiet₁ hshown => ?_
  refine Obeys.andThen (hinv.quiet hquiet₁) (obeys_checkIdentity T (hinv.quiet hquiet₁) hshown)
    fun now₂ identity w₂ hinv₂ hchecked => ?_
  obtain ⟨hquiet₂, hshown₂, hattached₂, hnew⟩ := hchecked
  refine Obeys.andThen hinv₂ (obeys_createCluster ((hquiet₁.trans hquiet₂).chosenIn hdevice)
    (by rw [hattached₂]) hshown₂ hnew) fun now₃ _ w₃ hinv₃ _ => ?_
  exact obeys_bind ((obeys_verifyCluster T hinv₃).mono fun _ _ _ _ => obeys_configureCluster)

/-! ### The run -/

theorem obeys_selectDevice (attempts : ℕ) :
    Obeys (policy c V₀ earlier) (fun now' device w' => Quiet now now' ∧ w' = w ∧
      (device ≠ "" → ChosenIn c now' device)) (selectDevice c attempts) now w := by
  induction attempts generalizing now with
  | zero => exact obeys_pure ⟨.refl now, rfl, fun h => absurd rfl h⟩
  | succ attempts ih =>
    rw [selectDevice]
    refine obeys_step .lsblk trivial fun (answer : Option (List BlockNode)) w' hdoes => ?_
    obtain rfl := hdoes
    have hquiet : Quiet now (now ++ [(⟨.lsblk, w', some answer⟩ : DbEvent)]) :=
      quiet_step fun h => by cases h
    split
    · next device hdevice =>
      obtain ⟨tree, rfl, hchoose⟩ := Option.bind_eq_some_iff.mp hdevice
      exact obeys_pure ⟨hquiet, rfl, fun _ => ⟨w', tree,
        List.mem_concat_self, (chooseDevice_eq_some.mp hchoose).2⟩⟩
    · exact ih.mono fun now' device w'' h => ⟨hquiet.trans h.1, h.2⟩

/-- **A run of `prepare` obeys the policy.** -/
theorem obeys_prepare (T : MarkerText) (hinv : Inv V₀ (earlier ++ now) w) :
    Obeys (policy c V₀ earlier) (fun _ _ _ => True) (prepare T c) now w := by
  refine (reads_requireAll _).andThen fun _ now₁ hquiet₁ _ => ?_
  refine obeys_bind ((obeys_selectDevice 120).mono fun now₂ device w₂ hselected => ?_)
  obtain ⟨hquiet₂, rfl, hdevice⟩ := hselected
  refine reads_require.andThen fun _ now₃ hquiet₃ hne => Reads.andThen
    (reads_command (.isBlockDevice device) (R := fun _ => True) trivial
      (fun h => by cases h) fun _ _ h => ⟨h, trivial⟩) fun _ now₄ hquiet₄ _ =>
    reads_require.andThen fun _ now₅ hquiet₅ _ =>
    (reads_requireAll _).andThen fun _ now₆ hquiet₆ _ => ?_
  have hsince := ((hquiet₃.trans hquiet₄).trans hquiet₅).trans hquiet₆
  have hchosen := hsince.chosenIn (hdevice hne)
  refine Obeys.andThen (hinv.quiet ((hquiet₁.trans hquiet₂).trans hsince))
    (obeys_prepareMount hchosen) fun now₇ _ w₇ hinv₇ hmounted => ?_
  exact obeys_prepareCluster T hinv₇ (hmounted.1.chosenIn hchosen)

end Writing

/-! ### All runs -/

/-- One run with its configuration. -/
structure Run where
  config : Config
  events : List DbEvent

def eventsOf (runs : List Run) : List DbEvent := runs.flatMap Run.events

/-- Between two runs the database server may have written in `pgdata`. -/
def Served (V V' : String → Volume) : Prop :=
  ∀ v, V' v = V v ∨ ∃ root others entries entries', V v = .ext4 root others ∧
    root.find? PGDATA = some (.directory entries) ∧
      V' v = .ext4 (root.put PGDATA (.directory entries')) others

/-- The runs of `prepare` one after the other. Each finds the volumes as the runs before it have
left them, and everything else of the system as it may be then. -/
inductive History (T : MarkerText) (V₀ : String → Volume) : List Run → (String → Volume) → Prop
  | start : History T V₀ [] V₀
  | next {runs : List Run} {V : String → Volume} {run : Run} {w w' : World}
      {result : Option Unit} : History T V₀ runs V → Served V w.volumes →
      Exec (prepare T run.config) w run.events result w' → History T V₀ (runs ++ [run]) w'.volumes

/-- Device, formatting and initialisation in one run. -/
structure SafeRun (run : Run) : Prop where
  device : ∀ before e after device, run.events = before ++ e :: after →
    (e.command : Command) = .mkfs device ∨ (e.command : Command) = .mount device →
      ChosenIn run.config before device
  mkfs : ∀ before e after device, run.events = before ++ e :: after →
    (e.command : Command) = .mkfs device → run.config.allowBlankVolumeInit = true ∧
      (e.before.volumes (e.before.attached device)).signatures = []
  initdb : ∀ before e after, run.events = before ++ e :: after →
    (e.command : Command) = .initdb →
      ∃ root, Initialising run.config before e.before root ∧ Blank root

/-- Nothing is destroyed: each run is safe, `initdb` is attempted at most once on a volume, and
never on one that held data. -/
structure Preserves (V₀ : String → Volume) (runs : List Run) : Prop where
  safe : ∀ run ∈ runs, SafeRun run
  once : ∀ v, initdbs (eventsOf runs) v ≤ 1
  held : ∀ v, HeldData (V₀ v) → initdbs (eventsOf runs) v = 0

theorem kept_of_served {V V' : String → Volume} (h : Served V V') (v : String) :
    Kept (V v) (V' v) := by
  rcases h v with hsame | ⟨root, others, entries, entries', hvolume, -, hvolume'⟩
  · rw [hsame]
    exact .refl _
  · rw [hvolume, hvolume']
    exact kept_put (by decide)

theorem inv_start (h : w.volumes = V₀) : Inv V₀ [] w :=
  ⟨fun _ => Nat.zero_le 1, fun _ hv => absurd hv (Nat.lt_irrefl 0), fun _ _ hv => ⟨h ▸ hv, rfl⟩⟩

theorem Inv.served (h : Inv V₀ es w) (hserved : Served w.volumes w'.volumes) : Inv V₀ es w' :=
  ⟨h.once, fun v hv => (kept_of_served hserved v).1 (h.marked v hv), fun hmeets v hv =>
    ⟨(kept_of_served hserved v).2 (h.held hmeets v hv).1, (h.held hmeets v hv).2⟩⟩

/-- By induction on the runs: the invariant holds behind them, and every command of theirs was
run under its guard. -/
theorem History.sound {T : MarkerText} {runs : List Run} {V : String → Volume}
    (h : History T V₀ runs V) : (∀ w : World, w.volumes = V → Inv V₀ (eventsOf runs) w) ∧
      ∀ earlier run later, runs = earlier ++ run :: later → ∀ before e after,
        run.events = before ++ e :: after →
          Guard run.config V₀ (eventsOf earlier) before e.command e.before := by
  induction h with
  | start => exact ⟨fun w hw => inv_start hw, fun earlier run later h => absurd h (by simp)⟩
  | @next runs V run w w' result _ hserved hexec ih =>
    have hinv : Inv V₀ (eventsOf runs) w :=
      (ih.1 { w with volumes := V } rfl).served hserved
    have hstart : (policy run.config V₀ (eventsOf runs)).Inv [] w := by
      show Inv V₀ (eventsOf runs ++ []) w
      rwa [List.append_nil]
    -- one run: its policy holds from the invariant that the earlier runs left
    obtain ⟨hend, hguards, -⟩ := hexec.sound hstart
      (obeys_prepare T (by rwa [List.append_nil]))
    refine ⟨fun w'' hw'' => ?_, fun earlier run' later hruns before e after hevents => ?_⟩
    · have hsame : Inv V₀ (eventsOf (runs ++ [run])) w' := by
        rw [eventsOf, List.flatMap_append, List.flatMap_singleton]
        exact hend
      exact ⟨hsame.once, fun v hv => hw'' ▸ hsame.marked v hv,
        fun hmeets v hv => hw'' ▸ hsame.held hmeets v hv⟩
    · rcases List.eq_nil_or_concat' later with rfl | ⟨later, last, rfl⟩
      · obtain ⟨rfl, hrun⟩ := List.append_inj' hruns rfl
        obtain rfl := (List.cons.inj hrun).1
        exact hguards before e after hevents
      · rw [← List.cons_append, ← List.append_assoc] at hruns
        exact ih.2 earlier run' later (List.append_inj' hruns rfl).1 before e after hevents

theorem mem_eventsOf {runs : List Run} {run : Run} (hrun : run ∈ runs) (he : e ∈ run.events) :
    e ∈ eventsOf runs := List.mem_flatMap.mpr ⟨run, hrun, he⟩

/-- **Preparing destroys nothing**, in every sequence of runs in which no file system without a
marker holds only a symbolic link `lost+found` that leads nowhere. -/
theorem preserves (T : MarkerText) {runs : List Run} {V : String → Volume}
    (h : History T V₀ runs V) (hmeets : Meets (eventsOf runs)) : Preserves V₀ runs := by
  obtain ⟨hinv, hguards⟩ := h.sound
  have hinv' := hinv ⟨V, fun _ => "", fun _ => "", fun _ => false, [], none⟩ rfl
  refine ⟨fun run hrun => ?_, hinv'.once, fun v hv => (hinv'.held hmeets v hv).2⟩
  obtain ⟨earlier, later, hruns⟩ := List.append_of_mem hrun
  have hguard := hguards earlier run later hruns
  refine ⟨fun before e after device hevents he => ?_, fun before e after device hevents he => ?_,
    fun before e after hevents he => ?_⟩
  · have hknown := hguard before e after hevents
    rcases he with he | he
    · rw [he] at hknown
      exact hknown.1
    · rw [he] at hknown
      exact hknown
  · have hknown := hguard before e after hevents
    rw [he] at hknown
    exact hknown.2
  · have hknown := hguard before e after hevents
    rw [he] at hknown
    obtain ⟨⟨root, hinitialising⟩, -⟩ := hknown
    -- the listing that found the root blank is an event of this run, so `hmeets` speaks of it
    obtain ⟨w₁, names, hlisted, -, -, hroot, hblank⟩ := hinitialising.created
    have hevent : (⟨.iterdir .mount, w₁, some names⟩ : DbEvent) ∈ run.events := by
      rw [hevents]
      exact List.mem_append_left _ hlisted
    exact ⟨root, hinitialising, hblank.blank hroot hmeets (mem_eventsOf hrun hevent)⟩

/-! ### Played runs -/

/-- A system on which everything goes well. Its devices are `devices`. -/
def carryOut (devices : List BlockNode) : (cmd : Command) → World → Option (Answer cmd × World)
  | .check _, w => some (true, w)
  | .lsblk, w => some (some devices, w)
  | .isBlockDevice _, w => some (true, w)
  | .isSymlink p, w => some (w.isSymlink p, w)
  | .isDirectory p, w => some (w.isDirectory p, w)
  | .isFile p, w => some (w.isFile p, w)
  | .pathExists p, w => some (w.pathExists p, w)
  | .iterdir p, w =>
    match w.node? p with
    | some (.directory entries) => some (Dir.names entries, w)
    | _ => none
  | .readText p, w =>
    match w.node? p with
    | some (.file content _ _) => some (content, w)
    | _ => none
  | .stat p, w =>
    match w.node? p with
    | some (.file _ uid mode) => some ((uid, mode), w)
    | _ => none
  | .findmnt target, w => some (w.mountsAt target, w)
  | .readlink path, w => some (w.canonical path, w)
  | .find, w => some (w.root?.any fun root => !root.isEmpty, w)
  | .blkid device, w =>
    match w.volumes (w.attached device) with
    | .unsigned => some ((2, ""), w)
    | .foreign signature _ => some ((0, signature), w)
    | .ext4 _ _ => some ((0, "ext4"), w)
  | .wipefs device, w => some (some (w.volumes (w.attached device)).signatures, w)
  | .mkdir, w => some (true, w.makeMountDir)
  | .mkfs device, w => some (true, w.setVolume (w.attached device) (.ext4 formatted []))
  | .mount device, w =>
    match w.volumes (w.attached device) with
    | .ext4 _ _ => some (true, w.mounted device ["rw", "nodev", "nosuid", "noexec"])
    | _ => some (false, w)
  | .openMarker, w =>
    match w.node? .marker with
    | none => some ((), w.put MARKER (.file [] 0 0o600))
    | some _ => none
  | .chmodMarker mode, w =>
    match w.node? .marker with
    | some (.file content uid _) => some ((), w.put MARKER (.file content uid mode))
    | _ => none
  | .writeMarker content, w =>
    match w.node? .marker with
    | some (.file _ uid mode) => some ((), w.put MARKER (.file content uid mode))
    | _ => none
  | .fsyncMarker, w => some ((), w)
  | .installData, w =>
    some (true, if (w.node? .data).isNone then w.put PGDATA (.directory []) else w)
  | .initdb, w =>
    match w.node? .data with
    | some (.directory _) =>
      some (true, w.put PGDATA (.directory [("PG_VERSION", .file [0x31, 0x36, 0x0a] 26 0o600)]))
    | _ => some (false, w)
  | .cluster _, w => some (true, w)

/-- That is one of the things that its commands may do. -/
theorem does_carryOut (devices : List BlockNode) (cmd : Command) (w : World) (r : Answer cmd)
    (w' : World) (h : carryOut devices cmd w = some (r, w')) : Does cmd w r w' := by
  have hpair : ∀ {a : Answer cmd} {w₁ : World}, some (a, w₁) = some (r, w') → r = a ∧ w' = w₁ :=
    fun h => ⟨(Prod.mk.inj (Option.some_inj.mp h)).1.symm,
      (Prod.mk.inj (Option.some_inj.mp h)).2.symm⟩
  cases cmd with
  | check p => exact (hpair h).2
  | lsblk => exact (hpair h).2
  | isBlockDevice device => exact (hpair h).2
  | isSymlink p => exact (hpair h).symm
  | isDirectory p => exact (hpair h).symm
  | isFile p => exact (hpair h).symm
  | pathExists p => exact (hpair h).symm
  | findmnt target => exact (hpair h).symm
  | readlink path => exact (hpair h).symm
  | fsyncMarker => exact (hpair h).2
  | iterdir p =>
    rw [carryOut] at h
    split at h
    · next entries hnode => exact ⟨(hpair h).2, entries, hnode, (hpair h).1⟩
    · cases h
  | readText p =>
    rw [carryOut] at h
    split at h
    · next content uid mode hnode => exact ⟨(hpair h).2, uid, mode, by rw [(hpair h).1, hnode]⟩
    · cases h
  | stat p =>
    rw [carryOut] at h
    split at h
    · next content uid mode hnode => exact ⟨(hpair h).2, content, by rw [(hpair h).1, hnode]⟩
    · cases h
  | find =>
    obtain ⟨rfl, rfl⟩ := hpair h
    refine ⟨rfl, fun root hroot => ?_⟩
    rw [hroot, Option.any_some]
    show (!List.isEmpty root : Bool) = true ↔ root ≠ []
    simp
  | blkid device =>
    rw [carryOut] at h
    split at h <;> exact (hpair h).2
  | wipefs device =>
    obtain ⟨rfl, rfl⟩ := hpair h
    exact ⟨rfl, fun signatures hsignatures => (Option.some_inj.mp hsignatures).symm⟩
  | mkdir =>
    obtain ⟨rfl, rfl⟩ := hpair h
    exact rfl
  | mkfs device =>
    obtain ⟨rfl, rfl⟩ := hpair h
    exact rfl
  | mount device =>
    rw [carryOut] at h
    split at h
    · next root others hvolume =>
      obtain ⟨rfl, rfl⟩ := hpair h
      exact ⟨root, others, _, hvolume, rfl⟩
    · obtain ⟨rfl, rfl⟩ := hpair h
      exact rfl
  | openMarker =>
    rw [carryOut] at h
    split at h
    · next hnode => exact ⟨hnode, (hpair h).2⟩
    · cases h
  | chmodMarker mode =>
    rw [carryOut] at h
    split at h
    · next content uid mode' hnode => exact ⟨content, uid, mode', hnode, (hpair h).2⟩
    · cases h
  | writeMarker content =>
    rw [carryOut] at h
    split at h
    · next content' uid mode hnode => exact ⟨content', uid, mode, hnode, (hpair h).2⟩
    · cases h
  | installData =>
    obtain ⟨rfl, rfl⟩ := hpair h
    exact rfl
  | initdb =>
    rw [carryOut] at h
    split at h
    · next entries hnode => exact .inr ⟨entries, _, hnode, (hpair h).2⟩
    · exact .inl (hpair h).2
  | cluster task => exact .inl (hpair h).2

/-- The run of `prepare` on such a system. -/
def played (T : MarkerText) (c : Config) (devices : List BlockNode) (w : World) :
    List DbEvent × Option Unit × World :=
  (prepare T c).play (carryOut devices) w

theorem history_played (T : MarkerText) (c : Config) (devices : List BlockNode) (w : World) :
    History T w.volumes [⟨c, (played T c devices w).1⟩] (played T c devices w).2.2.volumes :=
  .next .start (fun _ => .inl rfl)
    (exec_play (does_carryOut devices) (prepare T c) w)

/-- A volume that Terraform has attached, with its device. -/
def exampleConfig : Config :=
  { volumeId := "vol-0123456789abcdef0", database := "game", migrationRole := "migrator",
    applicationRole := "app", allowBlankVolumeInit := true }

def exampleDevices : List BlockNode :=
  [.mk (some "/dev/nvme0n1") (some "disk") (some "vol0aaaaaaaaaaaaaaaa") (.value [none])
      (.value [.mk (some "/dev/nvme0n1p1") (some "part") none (.value [some "/"]) .missing]),
    .mk (some "/dev/nvme1n1") (some "disk") (some "vol0123456789abcdef0") (.value [none])
      .missing]

/-- The text that `json.dump` writes of the identity. -/
def exampleMarker : Bytes :=
  (js ("\x7b\"volume_id\": \"vol-0123456789abcdef0\", \"database\": \"game\", " ++
    "\"migration_role\": \"migrator\", \"application_role\": \"app\"\x7d")).map UInt16.toUInt8

def exampleText : MarkerText where
  write _ := exampleMarker
  read text := if text = exampleMarker then some exampleConfig.toIdentity else none

def exampleWorld (volume : Volume) : World where
  volumes v := if v = "vol-0123456789abcdef0" then volume else .foreign "xfs" []
  attached device := if device = "/dev/nvme1n1" then "vol-0123456789abcdef0" else "root"
  canonical path := path
  reachable _ := false
  mounts := [⟨"/", "/dev/nvme0n1p1", "xfs", ["rw"]⟩]
  mountDir := none

theorem meets_of_all (h : es.all (fun e => match e.before.node? .lostFound with
    | some (.symlink target) => e.before.reachable target
    | _ => true) = true) : Meets es := by
  intro e he _ root hroot _ target htarget
  have hall := List.all_eq_true.mp h e he
  rw [World.node?, hroot, Option.bind_some, htarget] at hall
  exact hall

/-- A device without signatures is formatted, marked and initialised. -/
theorem preserves_unsigned :
    initdbs (played exampleText exampleConfig exampleDevices (exampleWorld .unsigned)).1
        exampleConfig.volumeId = 1 ∧
      Preserves (exampleWorld .unsigned).volumes
        [⟨exampleConfig,
          (played exampleText exampleConfig exampleDevices (exampleWorld .unsigned)).1⟩] :=
  ⟨by decide +kernel, preserves exampleText
    (history_played exampleText exampleConfig exampleDevices (exampleWorld .unsigned))
    (meets_of_all (by decide +kernel))⟩

/-- The link `lost+found` of a file system when its marker is created. -/
def marksLink (e : DbEvent) : Bool :=
  match (e.command : Command) with
  | .openMarker =>
    match e.before.node? .lostFound with
    | some (.symlink _) => true
    | _ => false
  | _ => true

theorem not_preserves_of_marksLink {events : List DbEvent} {v : String}
    (hinitdb : 0 < initdbs events v) (hlinks : events.all marksLink = true) :
    ¬Preserves V₀ [⟨c, events⟩] := by
  intro hpreserves
  have hrun := hpreserves.safe _ (List.mem_singleton_self _)
  obtain ⟨e, he, hinitialises⟩ := List.countP_pos_iff.mp hinitdb
  have hcommand : (e.command : Command) = .initdb := by
    unfold initialises at hinitialises
    split at hinitialises
    · next h => exact h
    · cases hinitialises
  obtain ⟨before, after, hevents⟩ := List.append_of_mem he
  obtain ⟨root, hinitialising, hblank⟩ := hrun.initdb before e after hevents hcommand
  obtain ⟨w₁, names, -, hopened, -, hroot, -⟩ := hinitialising.created
  have hlink := List.all_eq_true.mp hlinks ⟨.openMarker, w₁, some ()⟩
    (by rw [hevents]; exact List.mem_append_left _ hopened)
  unfold marksLink at hlink
  dsimp only at hlink
  rw [World.node?, hroot, Option.bind_some] at hlink
  split at hlink
  · next target hfind => cases (hblank _ _ hfind).2
  · cases hlink

/-- **A link `lost+found` that leads nowhere passes for an empty directory**, and `initdb` runs. -/
theorem initialises_dangling : ∃ (T : MarkerText) (V₀ : String → Volume) (runs : List Run)
    (V : String → Volume), History T V₀ runs V ∧ ¬Preserves V₀ runs :=
  ⟨exampleText, _, _, _, history_played exampleText exampleConfig exampleDevices
    (exampleWorld (.ext4 [(LOST_FOUND, .symlink "missing")] [])),
    not_preserves_of_marksLink (v := exampleConfig.volumeId) (by decide +kernel)
      (by decide +kernel)⟩

end DbBootstrap
