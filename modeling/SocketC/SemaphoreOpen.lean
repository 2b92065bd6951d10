/-
This file models `mysem_open` of `unpv22e/my_pxsem_mmap/sem_open.c`, called by any number of
processes for one pathname, together with `mysem_unlink`. The call that creates the file
initialises the semaphore in it and then turns off the user-execute bit of the file; every
other call opens the file, maps it, and looks at that bit until it is off.

The bit is read with `stat`, by the pathname, while the mapping is of the file that was opened
before. As long as the pathname is never removed the two are the same, and every call that
succeeds has the one initialised semaphore, if the bit was on to begin with: `open` turns it on
only if the umask of the process lets it. A creator that fails removes the pathname, and then
another process may have created a second file by the time the bit is read. The file that is
returned is the first one, which nobody will ever initialise. If its creator had failed before it
gave the file its size, the store of `sem_magic` in front of the return is outside of the file and
the process is killed.

There is no file when the calls begin.
-/

import SocketC.Transition

namespace SocketC.SemOpen

/-! ### The source -/

/-- `#define MAX_TRIES`. -/
def maxTries : Nat := 10

/-- The arguments of a call: whether `oflag` has `O_CREAT` and `O_EXCL`, and the value. `masked`
says that the umask of the process has `S_IXUSR`. -/
structure Call where
  creat : Bool
  excl : Bool
  value : Nat
  masked : Bool

/-- The call goes on at `exists` when it finds a file. -/
def Call.Joins (call : Call) : Prop := call.creat = true → call.excl = false

instance (call : Call) : Decidable call.Joins := inferInstanceAs (Decidable (_ → _))

/-- What the creator still has to do, from the next step on (lines 40-72). -/
inductive InitStep where
  | write
  | mmap
  | mutex
  | cond
  | value
  | fchmod
  deriving DecidableEq

/-- Where a call stands. A file is given by its number. -/
inductive Place where
  /-- At the label `again`. -/
  | again
  /-- At the label `exists`. -/
  | existing
  /-- Behind the `open` at `exists`. -/
  | mapping (file : Nat)
  /-- In the loop that waits for the initialisation. -/
  | trying (file i : Nat)
  | creating (file : Nat) (step : InitStep)
  /-- At the label `err`, with `created` set. -/
  | unlinking
  /-- Returned with a mapping of the file. -/
  | opened (file : Nat)
  /-- Returned `SEM_FAILED`. -/
  | failed
  /-- Killed by `SIGBUS` at line 103. -/
  | killed
  deriving DecidableEq

/-- What is in the file of a semaphore, and its user-execute bit. -/
structure SemFile where
  sized : Bool
  mutex : Bool
  cond : Bool
  count : Nat
  ixusr : Bool

/-- The file right after the exclusive `open`. -/
def SemFile.empty (masked : Bool) : SemFile := ⟨false, false, false, 0, !masked⟩

/-- The files that have been created so far, what the pathname stands for, and the calls. Who
created a file is recorded for the statements below; no call reads it. -/
structure Folder (calls : Nat) where
  entry : Option Nat
  made : Nat
  file : Nat → SemFile
  creator : Nat → Option (Fin calls)
  place : Fin calls → Place

variable {calls : Nat}

namespace Folder

def move (folder : Folder calls) (index : Fin calls) (place : Place) : Folder calls :=
  { folder with place := Function.update folder.place index place }

theorem place_move_self (folder : Folder calls) (index : Fin calls) (place : Place) :
    (folder.move index place).place index = place :=
  Function.update_self ..

theorem place_move_of_ne (folder : Folder calls) {index other : Fin calls} (place : Place)
    (different : other ≠ index) : (folder.move index place).place other = folder.place other :=
  Function.update_of_ne different ..

/-- `open` with `O_CREAT | O_EXCL` where there is no file. -/
def create (folder : Folder calls) (index : Fin calls) (masked : Bool) : Folder calls where
  entry := some folder.made
  made := folder.made + 1
  file := Function.update folder.file folder.made (.empty masked)
  creator := Function.update folder.creator folder.made (some index)
  place := Function.update folder.place index (.creating folder.made .write)

def store (folder : Folder calls) (file : Nat) (content : SemFile) : Folder calls :=
  { folder with file := Function.update folder.file file content }

/-- `unlink(pathname)`. -/
def unlink (folder : Folder calls) : Folder calls := { folder with entry := none }

/-- One step of the creator that succeeds. -/
def initialise (folder : Folder calls) (index : Fin calls) (value valueMax file : Nat) :
    InitStep → Folder calls
  | .write =>
    (folder.store file { folder.file file with sized := true }).move index (.creating file .mmap)
  | .mmap => folder.move index (.creating file .mutex)
  | .mutex =>
    (folder.store file { folder.file file with mutex := true }).move index (.creating file .cond)
  | .cond =>
    (folder.store file { folder.file file with cond := true }).move index (.creating file .value)
  | .value =>
    (folder.store file { folder.file file with count := value }).move index
      (if value > valueMax then .unlinking else .creating file .fchmod)
  | .fchmod =>
    (folder.store file { folder.file file with ixusr := false }).move index (.opened file)

/-- The next system call of a call of `mysem_open`, with the outcome that the folder gives it. -/
def proceed (folder : Folder calls) (index : Fin calls) (call : Call) (valueMax : Nat) :
    Option (Folder calls) :=
  match folder.place index with
  | .again =>
    if call.creat then
      match folder.entry with
      | none => some (folder.create index call.masked)
      | some _ => some (folder.move index (if call.excl then .failed else .existing))
    else some (folder.move index .existing)
  | .existing =>
    match folder.entry with
    | none => some (folder.move index (if call.creat then .again else .failed))
    | some file => some (folder.move index (.mapping file))
  | .mapping file => some (folder.move index (.trying file 0))
  | .trying file i =>
    if i < maxTries then
      match folder.entry with
      | none => some (folder.move index (if call.creat then .again else .failed))
      | some named =>
        if (folder.file named).ixusr then some (folder.move index (.trying file (i + 1)))
        else some (folder.move index (if (folder.file file).sized then .opened file else .killed))
    else some (folder.move index .failed)
  | .creating file step => some (folder.initialise index call.value valueMax file step)
  | .unlinking => some (folder.unlink.move index .failed)
  | .opened _ => none
  | .failed => none
  | .killed => none

/-- The next system call fails for a reason of its own, such as a lack of space. -/
def fault (folder : Folder calls) (index : Fin calls) (call : Call) : Option (Folder calls) :=
  match folder.place index with
  | .again => if call.creat then some (folder.move index .failed) else none
  | .existing => some (folder.move index .failed)
  | .mapping _ => some (folder.move index .failed)
  | .trying _ i => if i < maxTries then some (folder.move index .failed) else none
  | .creating _ .value => none
  | .creating _ _ => some (folder.move index .unlinking)
  | .unlinking => none
  | .opened _ => none
  | .failed => none
  | .killed => none

end Folder

inductive Action (calls : Nat) where
  | proceed (index : Fin calls)
  | fault (index : Fin calls)
  /-- Some process calls `mysem_unlink`. -/
  | unlink

def step (args : Fin calls → Call) (valueMax : Nat) (folder : Folder calls) :
    Action calls → Option (Folder calls)
  | .proceed index => folder.proceed index (args index) valueMax
  | .fault index => folder.fault index (args index)
  | .unlink => some folder.unlink

/-- All the calls, in a folder without the file. `valueMax` is `sysconf(_SC_SEM_VALUE_MAX)`. -/
def machine (args : Fin calls → Call) (valueMax : Nat) : Machine (Folder calls) (Action calls) where
  start := ⟨none, 0, fun _ => .empty false, fun _ => none, fun _ => .again⟩
  step := step args valueMax

/-! ### What a step can do -/

/-- The places of a call that has not created a file. -/
def Seeking : Place → Prop
  | .again | .existing | .mapping _ | .trying _ _ => True
  | _ => False

/-- What a call may come to from another place without touching a file. -/
inductive Roams (args : Fin calls → Call) (folder : Folder calls) (index : Fin calls) :
    Place → Prop where
  | again : Roams args folder index .again
  | existing (joins : (args index).Joins) : Roams args folder index .existing
  | mapping {file : Nat} (found : folder.entry = some file)
      (from_existing : folder.place index = .existing) : Roams args folder index (.mapping file)
  | trying {file i : Nat} (held : folder.place index = .mapping file ∨
      ∃ j, folder.place index = .trying file j) : Roams args folder index (.trying file i)
  | opened {file i named : Nat} (held : folder.place index = .trying file i)
      (found : folder.entry = some named) (clear : (folder.file named).ixusr = false) :
      Roams args folder index (.opened file)
  | failed : Roams args folder index .failed
  | killed : Roams args folder index .killed

/-- Everything that a step can do. -/
inductive Moves (args : Fin calls → Call) (valueMax : Nat) (folder : Folder calls) :
    Action calls → Folder calls → Prop where
  | roams {action : Action calls} (index : Fin calls) {place : Place}
      (seeking : Seeking (folder.place index)) (goes : Roams args folder index place) :
      Moves args valueMax folder action (folder.move index place)
  | creates {action : Action calls} (index : Fin calls) (start : folder.place index = .again)
      (creat : (args index).creat = true) (free : folder.entry = none) :
      Moves args valueMax folder action (folder.create index (args index).masked)
  | initialises {action : Action calls} (index : Fin calls) {file : Nat} {step : InitStep}
      (creating : folder.place index = .creating file step) :
      Moves args valueMax folder action
        (folder.initialise index (args index).value valueMax file step)
  | breaks {action : Action calls} (index : Fin calls) {file : Nat} {step : InitStep}
      (creating : folder.place index = .creating file step) :
      Moves args valueMax folder action (folder.move index .unlinking)
  | removes (index : Fin calls) (unlinking : folder.place index = .unlinking) :
      Moves args valueMax folder (.proceed index) (folder.unlink.move index .failed)
  | unlinked : Moves args valueMax folder .unlink folder.unlink

variable {args : Fin calls → Call} {valueMax : Nat} {folder next : Folder calls}

theorem roams_retry (index : Fin calls) :
    Roams args folder index (if (args index).creat then .again else .failed) := by
  split
  · exact .again
  · exact .failed

theorem moves_of_proceed {index : Fin calls}
    (taken : folder.proceed index (args index) valueMax = some next) :
    Moves args valueMax folder (.proceed index) next := by
  have seeking : ∀ {place}, folder.place index = place → Seeking place →
      Seeking (folder.place index) := fun same seeks => same ▸ seeks
  unfold Folder.proceed at taken
  split at taken
  next start =>
    split at taken
    next creat =>
      split at taken
      next free =>
        obtain rfl := Option.some.inj taken
        exact .creates index start creat free
      next =>
        obtain rfl := Option.some.inj taken
        refine .roams index (seeking start trivial) ?_
        split
        next => exact .failed
        next shared => exact .existing fun _ => Bool.eq_false_of_not_eq_true shared
    next plain =>
      obtain rfl := Option.some.inj taken
      exact .roams index (seeking start trivial) (.existing fun creat => absurd creat plain)
  next existing =>
    split at taken
    next =>
      obtain rfl := Option.some.inj taken
      exact .roams index (seeking existing trivial) (roams_retry index)
    next found =>
      obtain rfl := Option.some.inj taken
      exact .roams index (seeking existing trivial) (.mapping found existing)
  next mapping =>
    obtain rfl := Option.some.inj taken
    exact .roams index (seeking mapping trivial) (.trying (.inl mapping))
  next trying =>
    split at taken
    next =>
      split at taken
      next =>
        obtain rfl := Option.some.inj taken
        exact .roams index (seeking trying trivial) (roams_retry index)
      next found =>
        split at taken
        next =>
          obtain rfl := Option.some.inj taken
          exact .roams index (seeking trying trivial) (.trying (.inr ⟨_, trying⟩))
        next clear =>
          obtain rfl := Option.some.inj taken
          refine .roams index (seeking trying trivial) ?_
          split
          next => exact .opened trying found (Bool.eq_false_of_not_eq_true clear)
          next => exact .killed
    next =>
      obtain rfl := Option.some.inj taken
      exact .roams index (seeking trying trivial) .failed
  next creating =>
    obtain rfl := Option.some.inj taken
    exact .initialises index creating
  next unlinking =>
    obtain rfl := Option.some.inj taken
    exact .removes index unlinking
  next => cases taken
  next => cases taken
  next => cases taken

theorem moves_of_fault {index : Fin calls} (taken : folder.fault index (args index) = some next) :
    Moves args valueMax folder (.fault index) next := by
  have seeking : ∀ {place}, folder.place index = place → Seeking place →
      Seeking (folder.place index) := fun same seeks => same ▸ seeks
  unfold Folder.fault at taken
  split at taken
  next start =>
    obtain ⟨-, taken⟩ := Option.ite_none_right_eq_some.mp taken
    obtain rfl := Option.some.inj taken
    exact .roams index (seeking start trivial) .failed
  next existing =>
    obtain rfl := Option.some.inj taken
    exact .roams index (seeking existing trivial) .failed
  next mapping =>
    obtain rfl := Option.some.inj taken
    exact .roams index (seeking mapping trivial) .failed
  next trying =>
    obtain ⟨-, taken⟩ := Option.ite_none_right_eq_some.mp taken
    obtain rfl := Option.some.inj taken
    exact .roams index (seeking trying trivial) .failed
  next => cases taken
  next creating =>
    obtain rfl := Option.some.inj taken
    exact .breaks index creating
  next => cases taken
  next => cases taken
  next => cases taken
  next => cases taken

theorem moves_of_step {action : Action calls}
    (taken : step args valueMax folder action = some next) :
    Moves args valueMax folder action next := by
  cases action with
  | proceed index => exact moves_of_proceed taken
  | fault index => exact moves_of_fault taken
  | unlink =>
    obtain rfl := Option.some.inj taken
    exact .unlinked

/-! ### Files and their creators -/

/-- A call has not created a file. -/
def Idle (folder : Folder calls) (index : Fin calls) : Prop :=
  ∀ file, folder.creator file ≠ some index

/-- What the creator has done before a step. -/
structure Prepared (file : SemFile) (call : Call) (valueMax : Nat) (step : InitStep) : Prop where
  sized : step ≠ .write → file.sized = true
  mutex : step = .cond ∨ step = .value ∨ step = .fchmod → file.mutex = true
  cond : step = .value ∨ step = .fchmod → file.cond = true
  count : step = .fchmod → file.count = call.value ∧ call.value ≤ valueMax

/-- The semaphore in a file has been initialised. -/
structure Ready (args : Fin calls → Call) (folder : Folder calls) (file : Nat) : Prop where
  sized : (folder.file file).sized = true
  mutex : (folder.file file).mutex = true
  cond : (folder.file file).cond = true
  count : ∃ index, folder.creator file = some index ∧
    (folder.file file).count = (args index).value

/-- What is known of a call at each place. -/
def Placed (args : Fin calls → Call) (valueMax : Nat) (folder : Folder calls)
    (index : Fin calls) : Place → Prop
  | .again => Idle folder index
  | .existing => Idle folder index ∧ (args index).Joins
  | .mapping file => Idle folder index ∧ (args index).Joins ∧ file < folder.made
  | .trying file _ => Idle folder index ∧ (args index).Joins ∧ file < folder.made
  | .creating file step => folder.creator file = some index ∧
      (folder.file file).ixusr = !(args index).masked ∧
      Prepared (folder.file file) (args index) valueMax step
  | .unlinking => True
  | .opened file => folder.creator file = some index ∧ Ready args folder file ∨
      Idle folder index ∧ (args index).Joins ∧ file < folder.made ∧
        ∃ named < folder.made, (folder.file named).ixusr = false
  | .failed => True
  | .killed => True

/-- What is known of the folder. -/
structure Kept (args : Fin calls → Call) (valueMax : Nat) (folder : Folder calls) : Prop where
  entry_lt : ∀ file, folder.entry = some file → file < folder.made
  creator_lt : ∀ file index, folder.creator file = some index → file < folder.made
  creator_of_lt : ∀ file < folder.made,
    ∃ index, folder.creator file = some index ∧ (args index).creat = true
  once : ∀ first second index, folder.creator first = some index →
    folder.creator second = some index → first = second
  ready : ∀ file index, folder.creator file = some index → (args index).masked = false →
    (folder.file file).ixusr = false → Ready args folder file ∧ (args index).value ≤ valueMax
  placed : ∀ index, Placed args valueMax folder index (folder.place index)

variable {index : Fin calls} {place : Place} {file : Nat} {step : InitStep}

theorem Ready.congr (ready : Ready args folder file)
    (creator : next.creator file = folder.creator file)
    (content : next.file file = folder.file file) : Ready args next file := by
  obtain ⟨sized, mutex, cond, count⟩ := ready
  rw [← content] at sized mutex cond count
  rw [← creator] at count
  exact ⟨sized, mutex, cond, count⟩

theorem idle_of_seeking (placed : Placed args valueMax folder index place)
    (seeking : Seeking place) : Idle folder index := by
  cases place with
  | again => exact placed
  | existing | mapping | trying => exact placed.1
  | creating | unlinking | opened | failed | killed => exact seeking.elim

/-- What is known of a call stays true when others make files and initialise their own. -/
theorem Placed.mono (placed : Placed args valueMax folder index place)
    (idle : Idle folder index → Idle next index) (grows : folder.made ≤ next.made)
    (clear : ∀ file < folder.made, (folder.file file).ixusr = false →
      (next.file file).ixusr = false)
    (own : ∀ file, folder.creator file = some index →
      next.creator file = some index ∧ next.file file = folder.file file) :
    Placed args valueMax next index place := by
  cases place with
  | again => exact idle placed
  | existing => exact ⟨idle placed.1, placed.2⟩
  | mapping | trying => exact ⟨idle placed.1, placed.2.1, placed.2.2.trans_le grows⟩
  | creating file step =>
    obtain ⟨creator, set, prepared⟩ := placed
    obtain ⟨same, content⟩ := own file creator
    exact ⟨same, content ▸ set, content ▸ prepared⟩
  | opened file =>
    refine placed.imp (fun mine => ?_) fun found => ?_
    · obtain ⟨same, content⟩ := own file mine.1
      exact ⟨same, mine.2.congr (same.trans mine.1.symm) content⟩
    · obtain ⟨nothing, joins, inside, named, bound, off⟩ := found
      exact ⟨idle nothing, joins, inside.trans_le grows, named, bound.trans_le grows,
        clear named bound off⟩
  | unlinking | failed | killed => trivial

/-- A call that goes elsewhere changes nothing that is known of places. -/
theorem Placed.move {other : Fin calls} {elsewhere : Place}
    (placed : Placed args valueMax folder index place) :
    Placed args valueMax (folder.move other elsewhere) index place :=
  placed.mono id le_rfl (fun _ _ off => off) fun _ mine => ⟨mine, rfl⟩

theorem kept_start : Kept args valueMax (machine args valueMax).start where
  entry_lt := fun _ impossible => absurd impossible (Option.some_ne_none _).symm
  creator_lt := fun _ _ impossible => absurd impossible (Option.some_ne_none _).symm
  creator_of_lt := fun _ impossible => absurd impossible (Nat.not_lt_zero _)
  once := fun _ _ _ impossible => absurd impossible (Option.some_ne_none _).symm
  ready := fun _ _ impossible => absurd impossible (Option.some_ne_none _).symm
  placed := fun _ _ impossible => absurd impossible (Option.some_ne_none _).symm

/-- A call goes from one place to another. -/
theorem Kept.move (kept : Kept args valueMax folder)
    (placed : Placed args valueMax folder index place) :
    Kept args valueMax (folder.move index place) where
  entry_lt := kept.entry_lt
  creator_lt := kept.creator_lt
  creator_of_lt := kept.creator_of_lt
  once := kept.once
  ready := fun file creator made unmasked off =>
    have ⟨ready, value⟩ := kept.ready file creator made unmasked off
    ⟨ready.congr rfl rfl, value⟩
  placed := by
    intro other
    by_cases mine : other = index
    · rw [mine, Folder.place_move_self]
      exact placed.move
    · rw [Folder.place_move_of_ne _ _ mine]
      exact (kept.placed other).move

theorem Kept.unlink (kept : Kept args valueMax folder) : Kept args valueMax folder.unlink where
  entry_lt := fun _ impossible => absurd impossible (Option.some_ne_none _).symm
  creator_lt := kept.creator_lt
  creator_of_lt := kept.creator_of_lt
  once := kept.once
  ready := fun file creator made unmasked off =>
    have ⟨ready, value⟩ := kept.ready file creator made unmasked off
    ⟨ready.congr rfl rfl, value⟩
  placed := fun other => (kept.placed other).mono id le_rfl (fun _ _ off => off)
    fun _ mine => ⟨mine, rfl⟩

theorem Kept.roams (kept : Kept args valueMax folder) (seeking : Seeking (folder.place index))
    (goes : Roams args folder index place) : Kept args valueMax (folder.move index place) := by
  have before := kept.placed index
  have idle := idle_of_seeking before seeking
  refine kept.move ?_
  cases goes with
  | again => exact idle
  | existing joins => exact ⟨idle, joins⟩
  | mapping found from_existing =>
    rw [from_existing] at before
    exact ⟨idle, before.2, kept.entry_lt _ found⟩
  | trying held =>
    rcases held with mapping | ⟨j, trying⟩
    · rw [mapping] at before
      exact before
    · rw [trying] at before
      exact before
  | opened held found clear =>
    rw [held] at before
    exact .inr ⟨idle, before.2.1, before.2.2, _, kept.entry_lt _ found, clear⟩
  | failed | killed => trivial

theorem Kept.create (kept : Kept args valueMax folder) (start : folder.place index = .again)
    (creat : (args index).creat = true) :
    Kept args valueMax (folder.create index (args index).masked) := by
  have idle : Idle folder index := by
    have before := kept.placed index
    rwa [start] at before
  set after := folder.create index (args index).masked with created
  have old : ∀ {file}, file ≠ folder.made →
      after.creator file = folder.creator file ∧ after.file file = folder.file file :=
    fun different => ⟨Function.update_of_ne different .., Function.update_of_ne different ..⟩
  have new : after.creator folder.made = some index := Function.update_self ..
  have blank : after.file folder.made = .empty (args index).masked := Function.update_self ..
  have mine : ∀ {file}, after.creator file = some index → file = folder.made := by
    intro file made
    by_contra different
    rw [(old different).1] at made
    exact idle file made
  have others : ∀ {file other}, other ≠ index → after.creator file = some other →
      file ≠ folder.made := by
    rintro file other different made rfl
    exact different (Option.some.inj (made.symm.trans new))
  refine ⟨?_, ?_, ?_, ?_, ?_, ?_⟩
  · intro file named
    exact Option.some.inj named ▸ Nat.lt_succ_self _
  · intro file other made
    by_cases same : file = folder.made
    · exact same ▸ Nat.lt_succ_self _
    · rw [(old same).1] at made
      exact (kept.creator_lt file other made).trans (Nat.lt_succ_self _)
  · intro file inside
    by_cases same : file = folder.made
    · exact ⟨index, same ▸ new, creat⟩
    · rw [(old same).1]
      exact kept.creator_of_lt file (lt_of_le_of_ne (Nat.le_of_lt_succ inside) same)
  · intro first second other madeFirst madeSecond
    by_cases same : other = index
    · subst same
      exact (mine madeFirst).trans (mine madeSecond).symm
    · rw [(old (others same madeFirst)).1] at madeFirst
      rw [(old (others same madeSecond)).1] at madeSecond
      exact kept.once first second other madeFirst madeSecond
  · intro file other made unmasked off
    by_cases same : file = folder.made
    · -- The bit of the new file is on unless it was masked.
      subst same
      obtain rfl := Option.some.inj (made.symm.trans new)
      rw [blank, SemFile.empty, unmasked] at off
      cases off
    · rw [(old same).1] at made
      rw [(old same).2] at off
      obtain ⟨known, value⟩ := kept.ready file other made unmasked off
      exact ⟨known.congr (old same).1 (old same).2, value⟩
  · intro other
    by_cases same : other = index
    · rw [same, show after.place index = .creating folder.made .write from
        Function.update_self ..]
      refine ⟨new, by rw [blank]; rfl, ?_⟩
      exact ⟨fun impossible => absurd rfl impossible, by simp, by simp, by simp⟩
    · rw [show after.place other = folder.place other from Function.update_of_ne same ..]
      refine (kept.placed other).mono (fun nothing file made => ?_) (Nat.le_succ _)
        (fun file inside off => ?_) fun file made => ?_
      · rw [(old (others same made)).1] at made
        exact nothing file made
      · rw [(old inside.ne).2]
        exact off
      · have inside := kept.creator_lt file other made
        rw [(old inside.ne).1, (old inside.ne).2]
        exact ⟨made, rfl⟩

/-- The creator stores into its own file. -/
theorem Kept.store (kept : Kept args valueMax folder)
    (creating : folder.place index = .creating file step) {content : SemFile}
    (placed : Placed args valueMax (folder.store file content) index place)
    (clear : (folder.file file).ixusr = false → content.ixusr = false)
    (ready : (args index).masked = false → content.ixusr = false →
      Ready args (folder.store file content) file ∧ (args index).value ≤ valueMax) :
    Kept args valueMax ((folder.store file content).move index place) := by
  obtain ⟨creator, -, -⟩ : Placed args valueMax folder index (.creating file step) :=
    creating ▸ kept.placed index
  have old : ∀ {other}, other ≠ file → (folder.store file content).file other = folder.file other :=
    fun different => Function.update_of_ne different ..
  have stored : (folder.store file content).file file = content := Function.update_self ..
  refine ⟨kept.entry_lt, kept.creator_lt, kept.creator_of_lt, kept.once, ?_, ?_⟩
  · intro named other made unmasked off
    by_cases same : named = file
    · subst same
      obtain rfl := Option.some.inj (creator.symm.trans made)
      obtain ⟨known, value⟩ := ready unmasked (stored ▸ off)
      exact ⟨known.congr rfl rfl, value⟩
    · have before : (folder.file named).ixusr = false := old same ▸ off
      obtain ⟨known, value⟩ := kept.ready named other made unmasked before
      exact ⟨known.congr rfl (old same), value⟩
  · intro other
    by_cases mine : other = index
    · rw [mine, Folder.place_move_self]
      exact placed.move
    · rw [Folder.place_move_of_ne _ _ mine]
      refine Placed.move ((kept.placed other).mono id le_rfl (fun named _ off => ?_)
        fun named made => ?_)
      · by_cases same : named = file
        · rw [same, stored]
          exact clear (same ▸ off)
        · rw [old same]
          exact off
      · refine ⟨made, old fun same => ?_⟩
        rw [same, creator] at made
        exact mine (Option.some.inj made).symm

theorem Kept.initialise (kept : Kept args valueMax folder)
    (creating : folder.place index = .creating file step) :
    Kept args valueMax (folder.initialise index (args index).value valueMax file step) := by
  obtain ⟨creator, bit, prepared⟩ : Placed args valueMax folder index (.creating file step) :=
    creating ▸ kept.placed index
  have stored : ∀ content, (folder.store file content).file file = content :=
    fun _ => Function.update_self ..
  -- The bit is on as long as the file is not initialised, unless it was masked.
  have still : ∀ {content : SemFile} {Goal : Prop}, content.ixusr = (folder.file file).ixusr →
      (args index).masked = false → content.ixusr = false → Goal := by
    intro content Goal same unmasked off
    rw [same, bit, unmasked] at off
    cases off
  have onward : ∀ {content : SemFile} {next : InitStep},
      content.ixusr = (folder.file file).ixusr → Prepared content (args index) valueMax next →
      Kept args valueMax ((folder.store file content).move index (.creating file next)) := by
    intro content next same ahead
    refine kept.store creating ⟨creator, ?_, ?_⟩ same.trans (still same)
    · rw [stored, same, bit]
    · rw [stored]
      exact ahead
  cases step with
  | write => exact onward rfl ⟨fun _ => rfl, by simp, by simp, by simp⟩
  | mmap =>
    exact kept.move ⟨creator, bit, fun _ => prepared.sized (by simp), by simp, by simp, by simp⟩
  | mutex =>
    exact onward rfl ⟨fun _ => prepared.sized (by simp), fun _ => rfl, by simp, by simp⟩
  | cond =>
    exact onward rfl ⟨fun _ => prepared.sized (by simp), fun _ => prepared.mutex (by simp),
      fun _ => rfl, by simp⟩
  | value =>
    rw [Folder.initialise]
    split
    · exact kept.store creating trivial id (still rfl)
    · rename_i small
      exact onward rfl ⟨fun _ => prepared.sized (by simp), fun _ => prepared.mutex (by simp),
        fun _ => prepared.cond (by simp), fun _ => ⟨rfl, Nat.le_of_not_gt small⟩⟩
  | fchmod =>
    obtain ⟨count, small⟩ := prepared.count rfl
    have ready : Ready args (folder.store file { folder.file file with ixusr := false }) file := by
      constructor <;> rw [stored]
      · exact prepared.sized (by simp)
      · exact prepared.mutex (by simp)
      · exact prepared.cond (by simp)
      · exact ⟨index, creator, count⟩
    exact kept.store creating (.inl ⟨creator, ready⟩) (fun _ => rfl) fun _ _ => ⟨ready, small⟩

theorem Kept.moves {action : Action calls} (kept : Kept args valueMax folder)
    (moves : Moves args valueMax folder action next) : Kept args valueMax next := by
  cases moves with
  | roams index seeking goes => exact kept.roams seeking goes
  | creates index start creat free => exact kept.create start creat
  | initialises index creating => exact kept.initialise creating
  | breaks index creating => exact kept.move trivial
  | removes index unlinking => exact kept.unlink.move trivial
  | unlinked => exact kept.unlink

theorem kept_of_reachable (reached : (machine args valueMax).Reachable folder) :
    Kept args valueMax folder :=
  reached.invariant _ kept_start fun _ _ _ kept taken => kept.moves (moves_of_step taken)

/-- A call that succeeded has an initialised semaphore, or it has created none and has seen a file
with the bit off. -/
theorem Kept.opened (kept : Kept args valueMax folder)
    (opened : folder.place index = .opened file) :
    file < folder.made ∧ (Ready args folder file ∨ Idle folder index ∧ (args index).Joins ∧
      ∃ named < folder.made, (folder.file named).ixusr = false) := by
  have placed : Placed args valueMax folder index (.opened file) := opened ▸ kept.placed index
  rcases placed with ⟨creator, ready⟩ | ⟨idle, joins, inside, seen⟩
  · exact ⟨kept.creator_lt file index creator, .inl ready⟩
  · exact ⟨inside, .inr ⟨idle, joins, seen⟩⟩

/-! ### While the pathname stays -/

/-- The step does not remove the pathname. -/
def KeepsName (folder : Folder calls) : Action calls → Prop
  | .proceed index => folder.place index ≠ .unlinking
  | .fault _ => True
  | .unlink => False

instance (folder : Folder calls) (action : Action calls) : Decidable (KeepsName folder action) :=
  match action with
  | .proceed index => inferInstanceAs (Decidable (folder.place index ≠ .unlinking))
  | .fault _ => inferInstanceAs (Decidable True)
  | .unlink => inferInstanceAs (Decidable False)

/-- At most one file has been made, and it is there if it has. -/
structure Single (folder : Folder calls) : Prop where
  made_le : folder.made ≤ 1
  entry : folder.entry = none → folder.made = 0

theorem Single.initialise (single : Single folder) (value : Nat) :
    Single (folder.initialise index value valueMax file step) := by
  cases step with
  | write | mmap | mutex | cond | value | fchmod => exact ⟨single.made_le, single.entry⟩

theorem Single.moves {action : Action calls} (single : Single folder)
    (stays : KeepsName folder action) (moves : Moves args valueMax folder action next) :
    Single next := by
  cases moves with
  | roams index seeking goes => exact ⟨single.made_le, single.entry⟩
  | creates index start creat free =>
    have none : folder.made = 0 := single.entry free
    exact ⟨by rw [Folder.create, none], fun impossible => absurd impossible (Option.some_ne_none _)⟩
  | initialises index creating => exact single.initialise _
  | breaks index creating => exact ⟨single.made_le, single.entry⟩
  | removes index unlinking => exact absurd unlinking stays
  | unlinked => exact stays.elim

theorem single_of_reachable
    (reached : ((machine args valueMax).restrict KeepsName).Reachable folder) : Single folder := by
  refine reached.invariant Single ⟨Nat.zero_le 1, fun _ => rfl⟩ fun _ _ _ single taken => ?_
  obtain ⟨stays, taken⟩ := Machine.restrict_step taken
  exact single.moves stays (moves_of_step taken)

/-- In a folder without the file at first, if no umask of a call that may create it has `S_IXUSR`:
as long as nobody removes the pathname, all the calls that succeed have mapped one file, and the
semaphore in it has been initialised with the value of the call that created it. -/
theorem mysem_open_initialised
    (unmasked : ∀ index, (args index).creat = true → (args index).masked = false)
    (reached : ((machine args valueMax).restrict KeepsName).Reachable folder)
    {first second : Fin calls} {file other : Nat} (opened : folder.place first = .opened file)
    (openedToo : folder.place second = .opened other) :
    file = other ∧ Ready args folder file := by
  have kept := kept_of_reachable (Machine.Reachable.of_restrict reached)
  have single := (single_of_reachable reached).made_le
  obtain ⟨below, ready⟩ := kept.opened opened
  have belowToo := (kept.opened openedToo).1
  refine ⟨by omega, ready.elim id ?_⟩
  rintro ⟨-, -, named, inside, off⟩
  obtain rfl : named = file := by omega
  obtain ⟨creator, made, creat⟩ := kept.creator_of_lt named inside
  exact (kept.ready named creator made (unmasked creator creat) off).1

/-- Two calls that may both create a semaphore of value one. -/
def twoCalls : Fin 2 → Call := fun _ => ⟨true, false, 1, false⟩

/-- The first call creates the file, and then the second one joins it. -/
def twoOpened : Folder 2 :=
  ((machine twoCalls 1).restrict KeepsName).after
    (List.replicate 7 (.proceed ⟨0, Nat.zero_lt_two⟩) ++ List.replicate 4 (.proceed (Fin.last 1)))

theorem mysem_open_initialised_twoCalls :
    twoOpened.place ⟨0, Nat.zero_lt_two⟩ = .opened 0 ∧ twoOpened.place (Fin.last 1) = .opened 0 ∧
      Ready twoCalls twoOpened 0 :=
  ⟨by decide, by decide, (mysem_open_initialised (fun _ _ => rfl)
    (Machine.reachable_after _ (by decide))
    (by decide : twoOpened.place ⟨0, Nat.zero_lt_two⟩ = .opened 0)
    (by decide : twoOpened.place (Fin.last 1) = .opened 0)).2⟩

/-! ### When it is removed -/

section Race

theorem frame_initialise (value : Nat) :
    (folder.initialise index value valueMax file step).entry = folder.entry ∧
      (∀ other ≠ index, (folder.initialise index value valueMax file step).place other =
        folder.place other) ∧
      ∀ other ≠ file, (folder.initialise index value valueMax file step).file other =
        folder.file other := by
  cases step with
  | write | mutex | cond | value | fchmod =>
    exact ⟨rfl, fun other different => Folder.place_move_of_ne _ _ different,
      fun other different => Function.update_of_ne different ..⟩
  | mmap =>
    exact ⟨rfl, fun other different => Folder.place_move_of_ne _ _ different, fun _ _ => rfl⟩

/-- The creator can go on until the bit of its file is off, while the other calls rest. -/
def Completes (args : Fin calls → Call) (valueMax : Nat) (folder : Folder calls)
    (index : Fin calls) (file : Nat) : Prop :=
  ∃ next, (machine args valueMax).Leads folder next ∧ next.entry = folder.entry ∧
    (next.file file).ixusr = false ∧ (∀ other ≠ index, next.place other = folder.place other) ∧
    ∀ other ≠ file, next.file other = folder.file other

theorem leads_initialise (creating : folder.place index = .creating file step) :
    (machine args valueMax).Leads folder
      (folder.initialise index (args index).value valueMax file step) := by
  refine .of_step (.proceed index) ?_
  change folder.proceed index (args index) valueMax = _
  rw [Folder.proceed, creating]

theorem completes_fchmod (creating : folder.place index = .creating file .fchmod) :
    Completes args valueMax folder index file := by
  obtain ⟨entry, places, files⟩ := @frame_initialise calls valueMax folder index file .fchmod
    (args index).value
  refine ⟨_, leads_initialise creating, entry, ?_, places, files⟩
  rw [show (folder.initialise index (args index).value valueMax file .fchmod).file file =
    { folder.file file with ixusr := false } from Function.update_self ..]

theorem Completes.of_initialise (creating : folder.place index = .creating file step)
    (completes : Completes args valueMax
      (folder.initialise index (args index).value valueMax file step) index file) :
    Completes args valueMax folder index file := by
  obtain ⟨next, leads, entry, off, places, files⟩ := completes
  obtain ⟨sameEntry, samePlaces, sameFiles⟩ :=
    @frame_initialise calls valueMax folder index file step (args index).value
  exact ⟨next, (leads_initialise creating).trans leads, entry.trans sameEntry, off,
    fun other different => (places other different).trans (samePlaces other different),
    fun other different => (files other different).trans (sameFiles other different)⟩

/-- A creator whose value is allowed completes the initialisation if nothing fails. -/
theorem completes_write (small : (args index).value ≤ valueMax)
    (creating : folder.place index = .creating file .write) :
    Completes args valueMax folder index file := by
  refine .of_initialise creating (.of_initialise (Folder.place_move_self ..)
    (.of_initialise (Folder.place_move_self ..) (.of_initialise (Folder.place_move_self ..)
      (.of_initialise (Folder.place_move_self ..) (completes_fchmod ?_)))))
  exact (Folder.place_move_self ..).trans (if_neg (Nat.not_lt.mpr small))

theorem reach_proceed (reached : (machine args valueMax).Reachable folder)
    (taken : folder.proceed index (args index) valueMax = some next) :
    (machine args valueMax).Reachable next :=
  Machine.Leads.step reached (.proceed index) taken

theorem proceed_creates (start : folder.place index = .again)
    (creat : (args index).creat = true) (free : folder.entry = none) :
    folder.proceed index (args index) valueMax =
      some (folder.create index (args index).masked) := by
  rw [Folder.proceed, start]
  simp only [creat, free, if_true]

theorem proceed_joins (start : folder.place index = .again) (joins : (args index).Joins)
    (found : folder.entry = some file) :
    folder.proceed index (args index) valueMax = some (folder.move index .existing) := by
  rw [Folder.proceed, start]
  by_cases creat : (args index).creat = true
  · simp only [creat, found, joins creat, if_true]
    rfl
  · simp only [creat]
    rfl

theorem proceed_opens (existing : folder.place index = .existing)
    (found : folder.entry = some file) :
    folder.proceed index (args index) valueMax = some (folder.move index (.mapping file)) := by
  rw [Folder.proceed, existing]
  simp only [found]

theorem proceed_maps (mapping : folder.place index = .mapping file) :
    folder.proceed index (args index) valueMax = some (folder.move index (.trying file 0)) := by
  rw [Folder.proceed, mapping]

theorem proceed_returns {named : Nat} (trying : folder.place index = .trying file 0)
    (found : folder.entry = some named) (off : (folder.file named).ixusr = false)
    (sized : (folder.file file).sized = true) :
    folder.proceed index (args index) valueMax = some (folder.move index (.opened file)) := by
  rw [Folder.proceed, trying]
  simp only [found, off, sized, maxTries]
  rfl

theorem proceed_removes (unlinking : folder.place index = .unlinking) :
    folder.proceed index (args index) valueMax = some (folder.unlink.move index .failed) := by
  rw [Folder.proceed, unlinking]

theorem fault_mmap (creating : folder.place index = .creating file .mmap) :
    folder.fault index (args index) = some (folder.move index .unlinking) := by
  rw [Folder.fault, creating]

/-- A call has mapped a file that its creator has given its size and nothing else. -/
structure Joined (args : Fin calls → Call) (valueMax : Nat) (creator joiner : Fin calls)
    (folder : Folder calls) : Prop where
  reached : (machine args valueMax).Reachable folder
  entry : folder.entry = some 0
  made : folder.made = 1
  trying : folder.place joiner = .trying 0 0
  creating : folder.place creator = .creating 0 .mmap
  content : folder.file 0 = { SemFile.empty (args creator).masked with sized := true }
  rest : ∀ other, other ≠ creator → other ≠ joiner → folder.place other = .again

theorem exists_joined {creator joiner : Fin calls} (different : joiner ≠ creator)
    (creat : (args creator).creat = true) (joins : (args joiner).Joins) :
    ∃ folder, Joined args valueMax creator joiner folder := by
  set first := (machine args valueMax).start.create creator (args creator).masked with isFirst
  have created : (machine args valueMax).Reachable first :=
    reach_proceed .start (proceed_creates rfl creat rfl)
  have writing : first.place creator = .creating 0 .write := Function.update_self ..
  have blank : first.file 0 = .empty (args creator).masked := rfl
  have sized := created.leads (leads_initialise writing)
  set written := first.initialise creator (args creator).value valueMax 0 .write with isWritten
  have content : written.file 0 = { first.file 0 with sized := true } := rfl
  have waits : written.place joiner = .again :=
    (Folder.place_move_of_ne _ _ different).trans (Function.update_of_ne different ..)
  have joined := reach_proceed sized (proceed_joins waits joins rfl)
  have found := reach_proceed joined (proceed_opens (Folder.place_move_self ..) rfl)
  have mapped := reach_proceed found (proceed_maps (Folder.place_move_self ..))
  refine ⟨_, mapped, rfl, rfl, Folder.place_move_self .., ?_, blank ▸ content,
    fun other apart elsewhere => ?_⟩
  · iterate 3 rw [Folder.place_move_of_ne _ _ different.symm]
    exact Folder.place_move_self ..
  · iterate 3 rw [Folder.place_move_of_ne _ _ elsewhere]
    exact (Folder.place_move_of_ne _ _ apart).trans (Function.update_of_ne apart ..)

/-- What the creator leaves behind when it fails is not a semaphore. -/
theorem not_ready_of_content {masked : Bool}
    (content : folder.file file = { SemFile.empty masked with sized := true }) :
    ¬ Ready args folder file := by
  intro ready
  have initialised := ready.mutex
  rw [content] at initialised
  cases initialised

/-- With the bit masked, the joiner finds it off at once. -/
theorem Joined.returns {creator joiner : Fin calls}
    (joined : Joined args valueMax creator joiner folder)
    (masked : (args creator).masked = true) :
    ∃ next index file, (machine args valueMax).Reachable next ∧
      next.place index = .opened file ∧ ¬ Ready args next file := by
  have content := joined.content
  have off : (folder.file 0).ixusr = false := by
    rw [content, SemFile.empty, masked]
    rfl
  have sized : (folder.file 0).sized = true := by rw [content]
  exact ⟨_, joiner, 0, reach_proceed joined.reached
    (proceed_returns joined.trying joined.entry off sized), Folder.place_move_self ..,
    not_ready_of_content content⟩

/-- The creator fails and removes the pathname; another call creates and initialises a second file;
and then the joiner looks at the bit. -/
theorem Joined.races {failing creator joiner : Fin calls}
    (joined : Joined args valueMax failing joiner folder) (apart : failing ≠ creator)
    (other : joiner ≠ failing) (third : joiner ≠ creator) (creat : (args creator).creat = true)
    (small : (args creator).value ≤ valueMax) :
    ∃ next index file, (machine args valueMax).Reachable next ∧
      next.place index = .opened file ∧ ¬ Ready args next file := by
  have broken : (machine args valueMax).Reachable (folder.move failing .unlinking) :=
    Machine.Leads.step joined.reached (.fault failing) (fault_mmap joined.creating)
  have removed := reach_proceed broken (proceed_removes (Folder.place_move_self ..))
  set orphaned := (folder.move failing .unlinking).unlink.move failing .failed with isOrphaned
  have unchanged (call : Fin calls) (elsewhere : call ≠ failing) :
      orphaned.place call = folder.place call :=
    (Folder.place_move_of_ne _ _ elsewhere).trans (Folder.place_move_of_ne _ _ elsewhere)
  have again : orphaned.place creator = .again :=
    (unchanged creator apart.symm).trans (joined.rest creator apart.symm third.symm)
  have created := reach_proceed removed (proceed_creates again creat rfl)
  have writing : (orphaned.create creator (args creator).masked).place creator =
      .creating orphaned.made .write := Function.update_self ..
  obtain ⟨done, leads, entry, off, places, files⟩ := completes_write small writing
  have waits : done.place joiner = .trying 0 0 :=
    (places joiner third).trans ((Function.update_of_ne third ..).trans
      ((unchanged joiner other).trans joined.trying))
  have older : 0 ≠ orphaned.made := by
    rw [show orphaned.made = folder.made from rfl, joined.made]
    exact Nat.zero_ne_one
  have content : done.file 0 = { SemFile.empty (args failing).masked with sized := true } :=
    (files 0 older).trans ((Function.update_of_ne older ..).trans joined.content)
  have sized : (done.file 0).sized = true := by rw [content]
  exact ⟨_, joiner, 0, reach_proceed (created.leads leads) (proceed_returns waits entry off sized),
    Folder.place_move_self .., not_ready_of_content content⟩

/-- In a folder without the file at first, a call can return a semaphore that is not initialised in
two cases only. One is that the umask of a call that may create the file has `S_IXUSR` and another
call does not insist on creating it. The other is that there are three calls such that two of them
may create the file, one of these with a value that is allowed, and the third does not insist on
creating it. -/
theorem mysem_open_race_iff (args : Fin calls → Call) (valueMax : Nat) :
    (∃ folder index file, (machine args valueMax).Reachable folder ∧
      folder.place index = .opened file ∧ ¬ Ready args folder file) ↔
    (∃ creator joiner : Fin calls, joiner ≠ creator ∧ (args creator).creat = true ∧
      (args creator).masked = true ∧ (args joiner).Joins) ∨
    ∃ failing creator joiner : Fin calls, failing ≠ creator ∧ joiner ≠ failing ∧
      joiner ≠ creator ∧ (args failing).creat = true ∧ (args creator).creat = true ∧
      (args creator).value ≤ valueMax ∧ (args joiner).Joins := by
  constructor
  · rintro ⟨folder, joiner, file, reached, opened, notReady⟩
    have kept := kept_of_reachable reached
    obtain ⟨inside, outcome⟩ := kept.opened opened
    obtain ⟨idle, joins, named, below, off⟩ := outcome.resolve_left notReady
    obtain ⟨failing, madeFile, failingCreat⟩ := kept.creator_of_lt file inside
    obtain ⟨creator, madeNamed, creat⟩ := kept.creator_of_lt named below
    have third : joiner ≠ creator := by
      rintro rfl
      exact idle named madeNamed
    cases masked : (args creator).masked with
    | true => exact .inl ⟨creator, joiner, third, creat, masked, joins⟩
    | false =>
      obtain ⟨ready, small⟩ := kept.ready named creator madeNamed masked off
      refine .inr ⟨failing, creator, joiner, ?_, ?_, third, failingCreat, creat, small, joins⟩
      · rintro rfl
        exact notReady (kept.once named file failing madeNamed madeFile ▸ ready)
      · rintro rfl
        exact idle file madeFile
  · rintro (⟨creator, joiner, different, creat, masked, joins⟩ |
      ⟨failing, creator, joiner, apart, other, third, failingCreat, creat, small, joins⟩)
    · obtain ⟨folder, joined⟩ := exists_joined different creat joins
      exact joined.returns masked
    · obtain ⟨folder, joined⟩ := exists_joined other failingCreat joins
      exact joined.races apart other third creat small

end Race

end SocketC.SemOpen
