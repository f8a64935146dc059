import PixelBlocks.Proofs.Deep.Calls
import PixelBlocks.Proofs.Flat.RoundTrip
import PixelBlocks.Session

/-!
# Sessions have no history

An instance that a session keeps under a name was made for some layer when the defaults
had some values, or it is a copy of one that was. The events of the session tell which
layer and which values. Every step leaves an instance as it was made, but for its buffers;
so what it answers is what a new instance of the same origin answers, whatever happened
in between.
-/

namespace PixelBlocks

/-- The name of the instance that a call passes bytes or offsets through. -/
def Call.worksOn? : Call → Option String
  | .compress name _ _ | .uncompress name _ _ => some name
  | .compressSamples name _ _ | .uncompressSamples name _ _ => some name
  | .compressTable name _ | .uncompressTable name _ _ => some name
  | _ => none

/-- A step of a session: the defaults before it, the call and its answer. -/
structure Event where
  defaults : Defaults
  call : Call
  answer : Outcome Answer
  deriving DecidableEq, Repr

/-- Where an instance comes from: the defaults when it was made, and its layer. -/
inductive Origin
  | flat (defaults : Defaults) (layer : Layer)
  | deep (defaults : Defaults) (layer : Layer)
  deriving DecidableEq, Repr

/-- Makes a new instance of an origin. -/
def Origin.build : Origin → Outcome Compressor
  | .flat defaults layer => (FlatCompressor.build defaults layer).map .flat
  | .deep defaults layer => (DeepCompressor.build defaults layer).map .deep

namespace Compressor

/-- An instance that forgets its buffers. -/
def clear : Compressor → Compressor
  | .flat compressor => .flat compressor.clear
  | .deep compressor => .deep compressor.clear

/-- What an instance makes of a call that works on an instance of its sort, and the
instance after it. -/
def perform (coders : Coders) (schedule : Schedule) :
    Compressor → Call → Option (Outcome Answer × Compressor)
  | .flat compressor, .compress _ raw place =>
    let (outcome, compressor) := compressor.compress coders raw place
    some (outcome.map .bytes, .flat compressor)
  | .flat compressor, .uncompress _ stored place =>
    let (outcome, compressor) := compressor.uncompress coders stored place
    some (outcome.map .bytes, .flat compressor)
  | .deep compressor, .compressSamples _ samples offsets =>
    let (outcome, compressor) := compressor.compress coders schedule samples offsets
    some (outcome.map .bytes, .deep compressor)
  | .deep compressor, .uncompressSamples _ stored offsets =>
    let (outcome, compressor) := compressor.uncompress coders schedule stored offsets
    some (outcome.map .bytes, .deep compressor)
  | .deep compressor, .compressTable _ offsets =>
    let (outcome, compressor) := compressor.compressTable coders offsets
    some (outcome.map .bytes, .deep compressor)
  | .deep compressor, .uncompressTable _ stored pixels =>
    let (outcome, compressor) := compressor.uncompressTable coders stored pixels
    some (outcome.map .offsets, .deep compressor)
  | _, _ => none

section Calls

variable {coders : Coders} {schedule : Schedule} {compressor : Compressor} {call : Call}

/-- Forgetting twice is forgetting once. -/
@[simp] theorem clear_clear (compressor : Compressor) :
    compressor.clear.clear = compressor.clear := by
  cases compressor <;> rfl

/-- New instances have nothing to forget. -/
theorem clear_of_build {origin : Origin} (built : origin.build = .ok compressor) :
    compressor.clear = compressor := by
  cases origin with
  | flat defaults layer =>
    obtain ⟨made, found, rfl⟩ := Outcome.map_eq_ok_iff.mp built
    exact congrArg Compressor.flat (FlatCompressor.clear_of_build found)
  | deep defaults layer =>
    obtain ⟨made, found, rfl⟩ := Outcome.map_eq_ok_iff.mp built
    exact congrArg Compressor.deep (DeepCompressor.clear_of_build found)

/-- A call changes nothing but the buffers. -/
theorem clear_perform {answer : Outcome Answer} {after : Compressor}
    (performed : compressor.perform coders schedule call = some (answer, after)) :
    after.clear = compressor.clear := by
  cases compressor with
  | flat compressor =>
    cases call <;> simp only [perform, Option.some.injEq, Prod.mk.injEq, reduceCtorEq] at performed
    all_goals
      obtain ⟨-, rfl⟩ := performed
      simp [clear]
  | deep compressor =>
    cases call <;> simp only [perform, Option.some.injEq, Prod.mk.injEq, reduceCtorEq] at performed
    all_goals
      obtain ⟨-, rfl⟩ := performed
      simp [clear]

/-- What a call returns does not depend on the buffers, nor on the schedule. -/
theorem perform_clear (coders : Coders) (first second : Schedule) (compressor : Compressor)
    (call : Call) :
    (compressor.clear.perform coders first call).map Prod.fst =
      (compressor.perform coders second call).map Prod.fst := by
  cases compressor with
  | flat compressor =>
    cases call <;>
      simp [clear, perform, FlatCompressor.compress_clear, FlatCompressor.uncompress_clear]
  | deep compressor =>
    cases call <;>
      simp [clear, perform, DeepCompressor.compress_clear, DeepCompressor.uncompress_clear,
        DeepCompressor.compressTable_clear, DeepCompressor.uncompressTable_clear,
        DeepCompressor.compress_schedule coders _ _ first second,
        DeepCompressor.uncompress_schedule coders _ _ first second]

end Calls

end Compressor

namespace Session

/-- The session after events, of which the last comes first. Each call may run its tasks
in another order. -/
inductive After (coders : Coders) : List Event → Session → Prop
  | start : After coders [] start
  | step {events : List Event} {session next : Session} {schedule : Schedule} {call : Call}
    {answer : Outcome Answer} :
    After coders events session → session.step coders schedule call = some (answer, next) →
    After coders (⟨session.defaults, call, answer⟩ :: events) next

/-- The origin of the instance with a name: that of the last instance that was made or
copied under the name. A call that failed changes no origin. -/
def origin? : List Event → String → Option Origin
  | [], _ => none
  | event :: earlier, name =>
    match event.answer, event.call with
    | .ok _, .buildFlat made layer =>
      if name = made then some (.flat event.defaults layer) else origin? earlier name
    | .ok _, .buildDeep made layer =>
      if name = made then some (.deep event.defaults layer) else origin? earlier name
    | .ok _, .copy made source => origin? earlier (if name = made then source else name)
    | _, _ => origin? earlier name

/-- The instance with a name, without its buffers. -/
def settled? (session : Session) (name : String) : Option Compressor :=
  (session.find? name).map Compressor.clear

/-- Every instance of a session is, but for its buffers, what its origin makes. -/
def Recalls (events : List Event) (session : Session) : Prop :=
  ∀ name, (session.settled? name).map Except.ok = (origin? events name).map Origin.build

section Names

variable {session next : Session} {compressor : Compressor}

/-- Removing the instances with a name leaves those with another. -/
theorem lookup_filter_ne {made name : String} (other : name ≠ made)
    (entries : List (String × Compressor)) :
    (entries.filter (·.1 != made)).lookup name = entries.lookup name := by
  have elsewhere : (name == made) = false := by simpa using other
  induction entries with
  | nil => rfl
  | cons entry rest inductionHypothesis =>
    obtain ⟨here, compressor⟩ := entry
    by_cases removed : here = made
    · simp [List.lookup_cons, removed, inductionHypothesis, elsewhere]
    · simp [List.lookup_cons, removed, inductionHypothesis]

/-- What is kept under a name is found under this name, and all else as before. -/
theorem find?_keep (session : Session) (made name : String) (compressor : Compressor) :
    (session.keep made compressor).find? name =
      if name = made then some compressor else session.find? name := by
  by_cases same : name = made
  · simp [find?, keep, same]
  · have elsewhere : (name == made) = false := by simpa using same
    simp only [find?, keep, List.lookup_cons, elsewhere, lookup_filter_ne same, if_neg same]

/-- The same holds without buffers. -/
theorem settled?_keep (session : Session) (made name : String) (compressor : Compressor) :
    (session.keep made compressor).settled? name =
      if name = made then some compressor.clear else session.settled? name := by
  rw [settled?, find?_keep]
  split <;> rfl

/-- Keeping an instance that differs in its buffers changes nothing else. -/
theorem settled?_keep_of_clear_eq {made : String} {changed : Compressor}
    (found : session.find? made = some compressor) (same : changed.clear = compressor.clear)
    (name : String) : (session.keep made changed).settled? name = session.settled? name := by
  rw [settled?_keep]
  split
  · next here => rw [here, settled?, found, same, Option.map_some]
  · rfl

end Names

section Steps

variable {coders : Coders} {schedule : Schedule} {events : List Event}
variable {session next : Session} {call : Call} {answer : Outcome Answer} {name : String}

/-- A call that works on an instance is performed by the instance with its name. -/
theorem step_eq_perform (works : call.worksOn? = some name) (session : Session) :
    session.step coders schedule call =
      (session.find? name).bind fun compressor =>
        (compressor.perform coders schedule call).map fun (answer, after) =>
          (answer, session.keep name after) := by
  cases call <;> simp only [Call.worksOn?, Option.some.injEq, reduceCtorEq] at works
  all_goals
    subst works
    simp only [step, onFlat, onDeep]
    generalize session.find? _ = found
    rcases found with _ | ⟨compressor | compressor⟩ <;> rfl

/-- The answer to such a call is found without the buffers, under any schedule. -/
theorem map_fst_step (works : call.worksOn? = some name) (session : Session) (other : Schedule) :
    (session.step coders schedule call).map Prod.fst =
      (session.settled? name).bind fun compressor =>
        (compressor.perform coders other call).map Prod.fst := by
  rw [step_eq_perform works, settled?]
  cases session.find? name with
  | none => rfl
  | some compressor =>
    rw [Option.map_some, Option.bind_some, Option.bind_some,
      Compressor.perform_clear coders other schedule, Option.map_map]
    rfl

/-- Such a call changes nothing but buffers. -/
theorem settled?_step (works : call.worksOn? = some name)
    (stepped : session.step coders schedule call = some (answer, next)) (other : String) :
    next.settled? other = session.settled? other := by
  rw [step_eq_perform works] at stepped
  obtain ⟨compressor, found, performed⟩ := Option.bind_eq_some_iff.mp stepped
  obtain ⟨⟨outcome, after⟩, called, same⟩ := Option.map_eq_some_iff.mp performed
  cases same
  exact settled?_keep_of_clear_eq found (Compressor.clear_perform called) other

/-- Such a call makes no instance. -/
theorem origin?_cons (works : call.worksOn? = some name) (defaults : Defaults)
    (answer : Outcome Answer) (events : List Event) (other : String) :
    origin? (⟨defaults, call, answer⟩ :: events) other = origin? events other := by
  cases answer <;> cases call <;> first | rfl | cases works

/-- Keeping an instance that differs in its buffers changes no origin. -/
theorem Recalls.keep (recalls : Recalls events session) {used : String}
    {compressor changed : Compressor} (found : session.find? used = some compressor)
    (same : changed.clear = compressor.clear) : Recalls events (session.keep used changed) := by
  intro name
  rw [settled?_keep_of_clear_eq found same]
  exact recalls name

/-- Setting a default makes no instance. -/
theorem Recalls.adopt (recalls : Recalls events session) {changed : Outcome Defaults}
    (adopted : session.adopt changed = (answer, next)) : Recalls events next := by
  cases changed <;> cases adopted <;> exact recalls

/-- A new instance is what its origin makes. -/
theorem Recalls.install (recalls : Recalls events session) {made : String} (origin : Origin)
    (installed : session.install made origin.build = (answer, next)) (name : String) :
    (next.settled? name).map Except.ok =
      (match answer with
        | .ok _ => if name = made then some origin else origin? events name
        | .error _ => origin? events name).map Origin.build := by
  cases built : origin.build with
  | error fault =>
    rw [built] at installed
    cases installed
    exact recalls name
  | ok compressor =>
    rw [built] at installed
    cases installed
    rw [settled?_keep]
    by_cases here : name = made
    · simp [here, built, Compressor.clear_of_build built]
    · simp only [if_neg here]
      exact recalls name

/-- A copy has the origin of what it is a copy of. -/
theorem Recalls.copy (recalls : Recalls events session) {made source : String}
    {compressor : Compressor} (found : session.find? source = some compressor) (name : String) :
    ((session.keep made compressor).settled? name).map Except.ok =
      (origin? events (if name = made then source else name)).map Origin.build := by
  rw [settled?_keep]
  by_cases here : name = made
  · rw [if_pos here, if_pos here, ← recalls source, settled?, found]
    rfl
  · rw [if_neg here, if_neg here]
    exact recalls name

/-- Every step leaves an instance as its origin made it, but for its buffers. -/
theorem Recalls.step (recalls : Recalls events session)
    (stepped : session.step coders schedule call = some (answer, next)) :
    Recalls (⟨session.defaults, call, answer⟩ :: events) next := by
  intro name
  -- calls that work on an instance change its buffers only; the others are taken one by one
  cases works : call.worksOn? with
  | some used =>
    rw [settled?_step works stepped, origin?_cons works]
    exact recalls name
  | none =>
    cases call with
    | setZip | setZstd | setQuality =>
      have kept := recalls.adopt (Option.some.inj stepped)
      cases answer <;> exact kept name
    | buildFlat made layer =>
      have kept := recalls.install (.flat session.defaults layer) (Option.some.inj stepped)
      cases answer <;> exact kept name
    | buildDeep made layer =>
      have kept := recalls.install (.deep session.defaults layer) (Option.some.inj stepped)
      cases answer <;> exact kept name
    | copy made source =>
      obtain ⟨compressor, found, same⟩ := Option.map_eq_some_iff.mp stepped
      cases same
      exact recalls.copy found name
    | clear used =>
      obtain ⟨compressor, found, same⟩ := Option.map_eq_some_iff.mp stepped
      have kept := recalls.keep found compressor.clear_clear
      cases compressor <;> cases same <;> exact kept name
    | compress | uncompress | compressSamples | uncompressSamples | compressTable
      | uncompressTable => cases works

/-- So does a whole session. -/
theorem After.recalls (after : After coders events session) : Recalls events session := by
  induction after with
  | start => exact fun name => rfl
  | step _ stepped inductionHypothesis => exact inductionHypothesis.step stepped

end Steps

/-- After any number of steps, under whatever schedules they ran, a call on an instance is
answered as by a new instance of the same layer, made with the defaults that the first one was
made with: failed calls, calls on other instances and changed defaults leave no trace. A call on
a name that no instance was made under has no answer. -/
theorem step_of_origin {coders : Coders} {events : List Event} {session : Session}
    (after : After coders events session) {call : Call} {name : String}
    (works : call.worksOn? = some name) :
    (origin? events name = none → ∀ schedule, session.step coders schedule call = none) ∧
    ∀ origin, origin? events name = some origin →
      ∃ fresh, origin.build = .ok fresh ∧
        ∀ (first second : Schedule) (defaults : Defaults),
          (session.step coders first call).map Prod.fst =
            (Session.step coders second ⟨defaults, [(name, fresh)]⟩ call).map Prod.fst := by
  have recalls := after.recalls name
  constructor
  · intro unknown schedule
    rw [unknown, Option.map_none, Option.map_eq_none_iff, settled?, Option.map_eq_none_iff]
      at recalls
    rw [step_eq_perform works, recalls, Option.bind_none]
  · intro origin known
    rw [known, Option.map_some] at recalls
    obtain ⟨fresh, settled, built⟩ := Option.map_eq_some_iff.mp recalls
    refine ⟨fresh, built.symm, fun first second defaults => ?_⟩
    have kept : Session.settled? ⟨defaults, [(name, fresh)]⟩ name = some fresh := by
      simp [settled?, find?, Compressor.clear_of_build built.symm]
    rw [map_fst_step works _ .inOrder, map_fst_step works _ .inOrder, settled, kept]

/-- Where the tile of the examples lies. -/
def tilePlace : FlatCompressor.Place := .tile ⟨⟨-2, -1⟩, ⟨4, 4⟩⟩

/-- An instance for tiles is made, the default level is raised, and a tile is refused because it
has no bytes. -/
def tileEvents : List Event := [
  ⟨{ Defaults.initial with zstd := 9 }, .compress "tiles" [] tilePlace,
    .error (.capacity (.blockLength 0 96))⟩,
  ⟨.initial, .setZstd 9, .ok .done⟩,
  ⟨.initial, .buildFlat "tiles" FlatCompressor.tiledLayer, .ok .done⟩]

/-- The session after these events. -/
def tileSession : Session where
  defaults := { Defaults.initial with zstd := 9 }
  compressors := [("tiles", .flat { FlatCompressor.tileWriter with buffers := .empty })]

/-- The next tile is compressed with the level of the time when the instance was made. -/
theorem step_of_origin_tile :
    ∃ fresh, (Origin.flat .initial FlatCompressor.tiledLayer).build = .ok fresh ∧
      ∀ (first second : Schedule) (defaults : Defaults),
        (tileSession.step FlatCompressor.tileRecording.coders first
          (.compress "tiles" FlatCompressor.tileBytes tilePlace)).map Prod.fst =
        (Session.step FlatCompressor.tileRecording.coders second ⟨defaults, [("tiles", fresh)]⟩
          (.compress "tiles" FlatCompressor.tileBytes tilePlace)).map Prod.fst := by
  have made : start.step FlatCompressor.tileRecording.coders .inOrder
      (.buildFlat "tiles" FlatCompressor.tiledLayer) =
        some (.ok .done, { tileSession with defaults := .initial }) := rfl
  have raised : Session.step FlatCompressor.tileRecording.coders .inOrder
      { tileSession with defaults := .initial } (.setZstd 9) = some (.ok .done, tileSession) := rfl
  have refused : tileSession.step FlatCompressor.tileRecording.coders .inOrder
      (.compress "tiles" [] tilePlace) =
        some (.error (.capacity (.blockLength 0 96)), tileSession) := rfl
  have after : After FlatCompressor.tileRecording.coders tileEvents tileSession :=
    .step (.step (.step .start made) raised) refused
  exact (step_of_origin after rfl).2 _ rfl

end Session

end PixelBlocks
