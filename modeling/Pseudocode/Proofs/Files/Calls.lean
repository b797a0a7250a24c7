import Pseudocode.Eval
import Pseudocode.Proofs.Files.Store
import Pseudocode.Proofs.Outcome

/-!
Calls that have to do with files, and all that one of them can do.

A `FileCall` is made as programs make it: the functions by their names, the methods
as members of a reader or writer, with any arguments. `FileCall.Effect` lists what a
call that succeeds needs and what it changes; `perform_eq_done_iff` says that the
list is exact, and `perform_failed` that every other call fails and changes nothing
but the record of what was asked of the world.
-/

namespace Pseudocode

/-- A reader or a writer. -/
inductive Handle where
  | reader (id : ReaderId)
  | writer (id : WriterId)
  deriving DecidableEq, Repr

namespace Handle

def value : Handle → Value
  | reader id => .reader id
  | writer id => .writer id

/-- Calls a method of a handle by its name. -/
def invoke (ctx : Context) (span : Span) (handle : Handle) (method : String) (args : List Value) :
    Action Value := do
  let f ← Action.member handle.value method
  Action.callValue ctx f (some handle.value) args span

end Handle

inductive FileCall where
  | newFile (args : List Value)
  | openRead (args : List Value)
  | openWrite (args : List Value)
  | readLine (handle : Handle) (args : List Value)
  | endOfFile (handle : Handle) (args : List Value)
  | writeLine (handle : Handle) (args : List Value)
  | close (handle : Handle) (args : List Value)

namespace FileCall

/-- The handle that a method is called on. -/
def handle? : FileCall → Option Handle
  | newFile _ | openRead _ | openWrite _ => none
  | readLine handle _ | endOfFile handle _ | writeLine handle _ | close handle _ => some handle

/-- The call as a program makes it. -/
def perform (ctx : Context) (span : Span) : FileCall → Action Value
  | newFile args => Action.callValue ctx (.nativeFunction .newFile) none args span
  | openRead args => Action.callValue ctx (.nativeFunction .openRead) none args span
  | openWrite args => Action.callValue ctx (.nativeFunction .openWrite) none args span
  | readLine handle args => handle.invoke ctx span "readLine" args
  | endOfFile handle args => handle.invoke ctx span "endOfFile" args
  | writeLine handle args => handle.invoke ctx span "writeLine" args
  | close handle args => handle.invoke ctx span "close" args

/-- The machine after a file was asked for. -/
def loaded (m : Machine) (path : String) : Machine := { m with world := (m.world.load path).2 }

/-- The machine after a file was to be written. -/
def saved (m : Machine) (path contents : String) : Machine :=
  { m with world := (m.world.save path contents).2 }

/-- A call that succeeds: what it needs, what it gives and the machine after it. -/
inductive Effect (m : Machine) : FileCall → Value → Machine → Prop where
  | newFile {path : String} (accepted : (m.world.save path "").1 = .ok ()) :
      Effect m (.newFile [.text path]) .null (saved m path "")
  | openRead {path contents : String} (found : m.world.store.read? path = some contents) :
      Effect m (.openRead [.text path]) (.reader m.heap.readers.size)
        { loaded m path with heap := (m.heap.newReader { unread := Native.linesOf contents }).2 }
  | openWrite {path contents : String} (found : m.world.store.read? path = some contents) :
      Effect m (.openWrite [.text path]) (.writer m.heap.writers.size)
        { loaded m path with
          heap := (m.heap.newWriter (.ofLines path (Native.linesOf contents))).2 }
  | readLine {id : ReaderId} {r : FileReader} {line : String} {rest : List String}
      (here : m.heap.readers[id]? = some r) (isOpen : r.closed = false)
      (unread : r.unread = line :: rest) :
      Effect m (.readLine (.reader id) []) (.text line)
        { m with heap := m.heap.setReader id { r with unread := rest } }
  | endOfFile {id : ReaderId} {r : FileReader} (here : m.heap.readers[id]? = some r)
      (isOpen : r.closed = false) :
      Effect m (.endOfFile (.reader id) []) (.boolean r.unread.isEmpty) m
  | closeReader {id : ReaderId} {r : FileReader} (here : m.heap.readers[id]? = some r)
      (isOpen : r.closed = false) :
      Effect m (.close (.reader id) []) .null
        { m with heap := m.heap.setReader id { r with closed := true } }
  | writeLine {id : WriterId} {w : FileWriter} {line : String}
      (here : m.heap.writers[id]? = some w) (isOpen : w.closed = false) :
      Effect m (.writeLine (.writer id) [.text line]) (.text line)
        { m with heap := m.heap.setWriter id (w.add line) }
  | closeWriter {id : WriterId} {w : FileWriter} (here : m.heap.writers[id]? = some w)
      (isOpen : w.closed = false)
      (accepted : (m.world.save w.path (Text.joinLines w.lines)).1 = .ok ()) :
      Effect m (.close (.writer id) []) .null
        { saved m w.path (Text.joinLines w.lines) with
          heap := m.heap.setWriter id { w with closed := true } }

theorem store_saved (m : Machine) (path contents : String) :
    (saved m path contents).world.store = (m.world.store.write m.world.writes path contents).2 :=
  rfl

theorem verdict_save (w : World) (path contents : String) :
    (w.save path contents).1 = (w.store.write w.writes path contents).1 :=
  rfl

variable {ctx : Context} {span : Span} {m m' : Machine} {call : FileCall} {v : Value}

/-! ### The steps of a call -/

theorem fileContents_apply (path : String) (m : Machine) :
    Action.fileContents path m = match m.world.store.read? path with
      | some contents => .done contents (loaded m path)
      | none => .failed (.unplaced (.misuse (.fileMissing path))) (loaded m path) := by
  change (match m.world.store.read? path with
    | some contents => (pure contents : Action String)
    | none => Action.fail _) (loaded m path) = _
  cases m.world.store.read? path <;> rfl

theorem saveFile_apply (path contents : String) (m : Machine) :
    Action.saveFile path contents m = match (m.world.save path contents).1 with
      | .ok () => .done () (saved m path contents)
      | .error reason =>
          .failed (.unplaced (.misuse (.writeFailed reason))) (saved m path contents) := by
  change (match (m.world.save path contents).1 with
    | .ok () => (pure () : Action Unit)
    | .error reason => Action.fail _) (saved m path contents) = _
  cases (m.world.save path contents).1 <;> rfl

theorem readerOf_apply (id : ReaderId) (m : Machine) :
    Action.readerOf (.reader id) m = match m.heap.readers[id]? with
      | some r => .done (id, r) m
      | none => .failed (.unplaced (.typeProblem (.needsReader .reader))) m := by
  change (match m.heap.readers[id]? with
    | some r => (pure (id, r) : Action (ReaderId × FileReader))
    | none => Action.fail _) m = _
  cases m.heap.readers[id]? <;> rfl

theorem writerOf_apply (id : WriterId) (m : Machine) :
    Action.writerOf (.writer id) m = match m.heap.writers[id]? with
      | some w => .done (id, w) m
      | none => .failed (.unplaced (.typeProblem (.needsWriter .writer))) m := by
  change (match m.heap.writers[id]? with
    | some w => (pure (id, w) : Action (WriterId × FileWriter))
    | none => Action.fail _) m = _
  cases m.heap.writers[id]? <;> rfl

/-- A function of one text runs, or fails before it does anything. -/
theorem textFunction_cases (f : NativeFunction) (args : List Value) (run : String → Action Value)
    (m : Machine) :
    (∃ path, args = [.text path] ∧ Action.textFunction f args run m = run path m) ∨
      ∃ fault, Action.textFunction f args run m = .failed fault m := by
  rcases args with _ | ⟨v, _ | ⟨w, rest⟩⟩
  · exact .inr ⟨_, rfl⟩
  · cases v with
    | text path => exact .inl ⟨path, rfl, rfl⟩
    | _ => exact .inr ⟨_, rfl⟩
  · exact .inr ⟨_, rfl⟩

/-! ### Calls that succeed -/

/-- What is listed does happen. -/
theorem Effect.perform (effect : Effect m call v m') : call.perform ctx span m = .done v m' := by
  cases effect with
  | @newFile path accepted =>
      change (Action.saveFile path "" >>= fun _ => pure Value.null) m = _
      rw [Action.bind_apply, saveFile_apply, accepted]
      rfl
  | @openRead path contents found =>
      change Action.openReader path m = _
      rw [Action.openReader, Action.bind_apply, fileContents_apply, found]
      rfl
  | @openWrite path contents found =>
      change Action.openWriter path m = _
      rw [Action.openWriter, Action.bind_apply, fileContents_apply, found]
      rfl
  | @readLine id r line rest here isOpen unread =>
      change Action.readLine (.reader id) m = _
      rw [Action.readLine, Action.bind_apply, readerOf_apply, here]
      simp only [isOpen, unread]
      rfl
  | @endOfFile id r here isOpen =>
      change Action.endOfFile (.reader id) m = _
      rw [Action.endOfFile, Action.bind_apply, readerOf_apply, here]
      simp only [isOpen]
      rfl
  | @closeReader id r here isOpen =>
      change Action.closeReader (.reader id) m = _
      rw [Action.closeReader, Action.bind_apply, readerOf_apply, here]
      simp only [isOpen]
      rfl
  | @writeLine id w line here isOpen =>
      change Action.writeLine (.writer id) (.text line) m = _
      rw [Action.writeLine, Action.bind_apply, writerOf_apply, here]
      simp only [isOpen]
      rfl
  | @closeWriter id w here isOpen accepted =>
      change Action.closeWriter (.writer id) m = _
      rw [Action.closeWriter, Action.bind_apply, writerOf_apply, here]
      simp only [isOpen]
      change (Action.saveFile w.path (Text.joinLines w.lines) >>= fun _ =>
        Action.setWriter id { w with closed := true } >>= fun _ => pure Value.null) m = _
      rw [Action.bind_apply, saveFile_apply, accepted]
      rfl

/-! ### Calls that fail -/

/-- The outcome is a failure, and neither a handle nor a lawful store has changed. -/
def Refused (m : Machine) (o : Outcome Value) : Prop :=
  ∃ fault m', o = .failed fault m' ∧ m'.heap = m.heap ∧
    (m.world.store.system.Lawful → m'.world.store = m.world.store)

theorem refused (fault : Fault) (m : Machine) : Refused m (.failed fault m) :=
  ⟨fault, m, rfl, rfl, fun _ => rfl⟩

/-- A method without arguments on a reader goes on with it when the reader is open, or
fails before it does anything. -/
theorem readerMethod_cases (method : NativeMethod) (args : List Value) {id : ReaderId}
    (body : Action Value) {next : ReaderId × FileReader → Action Value}
    (looks : body = Action.readerOf (.reader id) >>= next)
    (guarded : ∀ r, r.closed = true → ∃ cause, next (id, r) = Action.fail cause) (m : Machine) :
    (∃ r, args = [] ∧ m.heap.readers[id]? = some r ∧ r.closed = false ∧
        Action.plainMethod method args body m = next (id, r) m) ∨
      ∃ fault, Action.plainMethod method args body m = .failed fault m := by
  cases args with
  | cons v rest => exact .inr ⟨_, rfl⟩
  | nil =>
      have ran : Action.plainMethod method [] body m = (Action.readerOf (.reader id) >>= next) m :=
        congrFun looks m
      rw [ran, Action.bind_apply, readerOf_apply]
      cases m.heap.readers[id]? with
      | none => exact .inr ⟨_, rfl⟩
      | some r =>
          cases isOpen : r.closed with
          | true =>
              obtain ⟨cause, stops⟩ := guarded r isOpen
              exact .inr ⟨.unplaced cause, congrFun stops m⟩
          | false => exact .inl ⟨r, rfl, rfl, isOpen, rfl⟩

/-- A method on a writer goes on with it when the writer is open, or fails before it does
anything. -/
theorem writerMethod_cases {id : WriterId} (body : Action Value)
    {next : WriterId × FileWriter → Action Value}
    (looks : body = Action.writerOf (.writer id) >>= next)
    (guarded : ∀ w, w.closed = true → ∃ cause, next (id, w) = Action.fail cause) (m : Machine) :
    (∃ w, m.heap.writers[id]? = some w ∧ w.closed = false ∧ body m = next (id, w) m) ∨
      ∃ fault, body m = .failed fault m := by
  rw [looks, Action.bind_apply, writerOf_apply]
  cases m.heap.writers[id]? with
  | none => exact .inr ⟨_, rfl⟩
  | some w =>
      cases isOpen : w.closed with
      | true =>
          obtain ⟨cause, stops⟩ := guarded w isOpen
          exact .inr ⟨.unplaced cause, congrFun stops m⟩
      | false => exact .inl ⟨w, rfl, isOpen, rfl⟩

theorem refused_of_denied {path contents reason : String} {next : Action Value} {o : Outcome Value}
    (denied : (m.world.save path contents).1 = .error reason)
    (ran : o = (Action.saveFile path contents >>= fun _ => next) m) : Refused m o := by
  rw [Action.bind_apply, saveFile_apply, denied] at ran
  exact ⟨_, _, ran, rfl, fun lawful => FileStore.write_of_error lawful denied⟩

/-- What is not listed does not happen: a call has one of the effects or is refused. -/
theorem perform_cases (ctx : Context) (span : Span) (call : FileCall) (m : Machine) :
    (∃ v m', Effect m call v m') ∨ Refused m (call.perform ctx span m) := by
  cases call with
  | newFile args =>
      rcases textFunction_cases .newFile args
        (fun path => Action.saveFile path "" >>= fun _ => pure .null) m with
        ⟨path, rfl, ran⟩ | ⟨fault, ran⟩
      · cases verdict : (m.world.save path "").1 with
        | ok _ => exact .inl ⟨_, _, .newFile verdict⟩
        | error reason => exact .inr (refused_of_denied verdict ran)
      · exact .inr ⟨fault, m, ran, rfl, fun _ => rfl⟩
  | openRead args =>
      rcases textFunction_cases .openRead args Action.openReader m with
        ⟨path, rfl, ran⟩ | ⟨fault, ran⟩
      · cases found : m.world.store.read? path with
        | some contents => exact .inl ⟨_, _, .openRead found⟩
        | none =>
            rw [Action.openReader, Action.bind_apply, fileContents_apply, found] at ran
            exact .inr ⟨_, _, ran, rfl, fun _ => rfl⟩
      · exact .inr ⟨fault, m, ran, rfl, fun _ => rfl⟩
  | openWrite args =>
      rcases textFunction_cases .openWrite args Action.openWriter m with
        ⟨path, rfl, ran⟩ | ⟨fault, ran⟩
      · cases found : m.world.store.read? path with
        | some contents => exact .inl ⟨_, _, .openWrite found⟩
        | none =>
            rw [Action.openWriter, Action.bind_apply, fileContents_apply, found] at ran
            exact .inr ⟨_, _, ran, rfl, fun _ => rfl⟩
      · exact .inr ⟨fault, m, ran, rfl, fun _ => rfl⟩
  | readLine handle args =>
      cases handle with
      | writer id => exact .inr (refused _ m)
      | reader id =>
          rcases readerMethod_cases .readLine args (Action.readLine (.reader id)) rfl
            (fun r closed => ⟨_, if_pos closed⟩) m with ⟨r, rfl, here, isOpen, ran⟩ | ⟨fault, ran⟩
          · cases unread : r.unread with
            | cons line rest => exact .inl ⟨_, _, .readLine here isOpen unread⟩
            | nil =>
                simp only [isOpen, unread] at ran
                exact .inr ⟨_, m, ran, rfl, fun _ => rfl⟩
          · exact .inr ⟨fault, m, ran, rfl, fun _ => rfl⟩
  | endOfFile handle args =>
      cases handle with
      | writer id => exact .inr (refused _ m)
      | reader id =>
          rcases readerMethod_cases .endOfFile args (Action.endOfFile (.reader id)) rfl
            (fun r closed => ⟨_, if_pos closed⟩) m with ⟨r, rfl, here, isOpen, -⟩ | ⟨fault, ran⟩
          · exact .inl ⟨_, _, .endOfFile here isOpen⟩
          · exact .inr ⟨fault, m, ran, rfl, fun _ => rfl⟩
  | writeLine handle args =>
      cases handle with
      | reader id => exact .inr (refused _ m)
      | writer id =>
          rcases args with _ | ⟨v, _ | ⟨v', rest⟩⟩
          · exact .inr (refused _ m)
          · rcases writerMethod_cases (Action.writeLine (.writer id) v) rfl
              (fun w closed => ⟨_, if_pos closed⟩) m with ⟨w, here, isOpen, ran⟩ | ⟨fault, ran⟩
            · cases v with
              | text line => exact .inl ⟨_, _, .writeLine here isOpen⟩
              | _ =>
                  simp only [isOpen] at ran
                  exact .inr ⟨_, m, ran, rfl, fun _ => rfl⟩
            · exact .inr ⟨fault, m, ran, rfl, fun _ => rfl⟩
          · exact .inr (refused _ m)
  | close handle args =>
      cases handle with
      | reader id =>
          rcases readerMethod_cases .closeReader args (Action.closeReader (.reader id)) rfl
            (fun r closed => ⟨_, if_pos closed⟩) m with ⟨r, rfl, here, isOpen, -⟩ | ⟨fault, ran⟩
          · exact .inl ⟨_, _, .closeReader here isOpen⟩
          · exact .inr ⟨fault, m, ran, rfl, fun _ => rfl⟩
      | writer id =>
          cases args with
          | cons v rest => exact .inr (refused _ m)
          | nil =>
              rcases writerMethod_cases (Action.closeWriter (.writer id)) rfl
                (fun w closed => ⟨_, if_pos closed⟩) m with ⟨w, here, isOpen, ran⟩ | ⟨fault, ran⟩
              · cases verdict : (m.world.save w.path (Text.joinLines w.lines)).1 with
                | ok _ => exact .inl ⟨_, _, .closeWriter here isOpen verdict⟩
                | error reason =>
                    simp only [isOpen, Bool.false_eq_true, if_false] at ran
                    exact .inr (refused_of_denied verdict ran)
              · exact .inr ⟨fault, m, ran, rfl, fun _ => rfl⟩

/-- A call succeeds exactly with the effects that are listed. -/
theorem perform_eq_done_iff : call.perform ctx span m = .done v m' ↔ Effect m call v m' := by
  constructor
  · intro done
    rcases perform_cases ctx span call m with ⟨v', m'', effect⟩ | ⟨fault, m'', failed, -⟩
    · have ran : call.perform ctx span m = .done v' m'' := effect.perform
      rw [done] at ran
      cases ran
      exact effect
    · rw [failed] at done
      cases done
  · exact Effect.perform

/-- A call that fails changes neither a handle nor the store. -/
theorem perform_failed (lawful : m.world.store.system.Lawful) {fault : Fault}
    (failed : call.perform ctx span m = .failed fault m') :
    m'.heap = m.heap ∧ m'.world.store = m.world.store := by
  rcases perform_cases ctx span call m with ⟨v, m'', effect⟩ | ⟨fault', m'', refused, same⟩
  · rw [effect.perform] at failed
    cases failed
  · rw [refused] at failed
    cases failed
    exact ⟨same.1, same.2 lawful⟩

/-- A call without a listed effect fails. -/
theorem failed_of_no_effect (none : ∀ v m', ¬ Effect m call v m') :
    ∃ fault m', call.perform ctx span m = .failed fault m' := by
  rcases perform_cases ctx span call m with ⟨v, m', effect⟩ | ⟨fault, m', failed, -⟩
  · exact absurd effect (none v m')
  · exact ⟨fault, m', failed⟩

section Failing

variable {path : String} {id : Nat}

theorem openRead_failed (missing : m.world.store.read? path = none) :
    ∃ fault m', (openRead [.text path]).perform ctx span m = .failed fault m' := by
  refine failed_of_no_effect ?_
  intro v m' effect
  cases effect with
  | openRead found =>
      rw [missing] at found
      cases found

theorem openWrite_failed (missing : m.world.store.read? path = none) :
    ∃ fault m', (openWrite [.text path]).perform ctx span m = .failed fault m' := by
  refine failed_of_no_effect ?_
  intro v m' effect
  cases effect with
  | openWrite found =>
      rw [missing] at found
      cases found

/-- There is nothing to read past the last line. -/
theorem readLine_failed {r : FileReader} (here : m.heap.readers[id]? = some r) (empty : r.unread = []) :
    ∃ fault m', (readLine (.reader id) []).perform ctx span m = .failed fault m' := by
  refine failed_of_no_effect ?_
  intro v m' effect
  cases effect with
  | readLine here' isOpen unread =>
      rw [here] at here'
      cases here'
      rw [empty] at unread
      cases unread

/-- A writer is not closed when its lines cannot be stored. -/
theorem close_failed {w : FileWriter} {reason : String} (here : m.heap.writers[id]? = some w)
    (refused : (m.world.store.write m.world.writes w.path (Text.joinLines w.lines)).1 = .error reason) :
    ∃ fault m', (close (.writer id) []).perform ctx span m = .failed fault m' := by
  refine failed_of_no_effect ?_
  intro v m' effect
  cases effect with
  | closeWriter here' isOpen accepted =>
      rw [here] at here'
      cases here'
      rw [verdict_save, refused] at accepted
      cases accepted

end Failing

end FileCall

end Pseudocode
