import PixelBlocks.Deep

/-!
# Sessions

A session is a run of calls: defaults are changed, compressors are made and kept
under names, and blocks pass through them. Every call gives an answer and the
session after it. A call that fails leaves the defaults and the names as they
were.
-/

namespace PixelBlocks

/-- A compressor of either sort. -/
inductive Compressor
  | flat (compressor : FlatCompressor)
  | deep (compressor : DeepCompressor)
  deriving DecidableEq, Repr

/-- What a call asks for. -/
inductive Call
  | setZip (level : Int32)
  | setZstd (level : Int32)
  | setQuality (quality : Quality)
  | buildFlat (name : String) (layer : Layer)
  | buildDeep (name : String) (layer : Layer)
  | copy (name : String) (source : String)
  | clear (name : String)
  | compress (name : String) (raw : Bytes) (place : FlatCompressor.Place)
  | uncompress (name : String) (stored : Bytes) (place : FlatCompressor.Place)
  | compressSamples (name : String) (samples : Bytes) (offsets : List Int32)
  | uncompressSamples (name : String) (stored : Bytes) (offsets : List Int32)
  | compressTable (name : String) (offsets : List Int32)
  | uncompressTable (name : String) (stored : Bytes) (pixels : Nat)
  deriving DecidableEq, Repr

/-- What a successful call returns. -/
inductive Answer
  | done
  | bytes (bytes : Bytes)
  | offsets (offsets : List Int32)
  deriving DecidableEq, Repr

/-- The defaults of the process and the compressors that it keeps. -/
structure Session where
  defaults : Defaults
  compressors : List (String × Compressor)
  deriving DecidableEq, Repr

namespace Session

/-- A new process. -/
def start : Session := ⟨.initial, []⟩

/-- The compressor with a name. -/
def find? (session : Session) (name : String) : Option Compressor :=
  session.compressors.lookup name

/-- Keeps a compressor under a name, in place of any other. -/
def keep (session : Session) (name : String) (compressor : Compressor) : Session :=
  { session with
    compressors := (name, compressor) :: session.compressors.filter (·.1 != name) }

/-- Takes over changed defaults. -/
def adopt (session : Session) (changed : Outcome Defaults) : Outcome Answer × Session :=
  match changed with
  | .ok defaults => (.ok .done, { session with defaults })
  | .error fault => (.error fault, session)

/-- Keeps a new compressor, if it could be made. -/
def install (session : Session) (name : String) (made : Outcome Compressor) :
    Outcome Answer × Session :=
  match made with
  | .ok compressor => (.ok .done, session.keep name compressor)
  | .error fault => (.error fault, session)

/-- Runs a call on the flat compressor with a name. There is no answer if there is
    none. -/
def onFlat (session : Session) (name : String)
    (call : FlatCompressor → Outcome Answer × FlatCompressor) :
    Option (Outcome Answer × Session) :=
  match session.find? name with
  | some (.flat compressor) =>
    let (outcome, compressor) := call compressor
    some (outcome, session.keep name (.flat compressor))
  | _ => none

/-- Runs a call on the deep compressor with a name. There is no answer if there is
    none. -/
def onDeep (session : Session) (name : String)
    (call : DeepCompressor → Outcome Answer × DeepCompressor) :
    Option (Outcome Answer × Session) :=
  match session.find? name with
  | some (.deep compressor) =>
    let (outcome, compressor) := call compressor
    some (outcome, session.keep name (.deep compressor))
  | _ => none

/-- Presents returned bytes as an answer. -/
def answering {Instance : Type} (result : Outcome Bytes × Instance) :
    Outcome Answer × Instance :=
  (result.1.map .bytes, result.2)

/-- The answer to a call and the session after it. A call on a name that has no
    compressor of the right sort has no answer. -/
def step (coders : Coders) (schedule : Schedule) (session : Session) :
    Call → Option (Outcome Answer × Session)
  | .setZip level => some (session.adopt (session.defaults.setZip level))
  | .setZstd level => some (session.adopt (session.defaults.setZstd level))
  | .setQuality quality => some (session.adopt (session.defaults.setQuality quality))
  | .buildFlat name layer =>
    some (session.install name ((FlatCompressor.build session.defaults layer).map .flat))
  | .buildDeep name layer =>
    some (session.install name ((DeepCompressor.build session.defaults layer).map .deep))
  | .copy name source =>
    (session.find? source).map fun compressor => (.ok .done, session.keep name compressor)
  | .clear name =>
    (session.find? name).map fun
      | .flat compressor => (.ok .done, session.keep name (.flat compressor.clear))
      | .deep compressor => (.ok .done, session.keep name (.deep compressor.clear))
  | .compress name raw place =>
    session.onFlat name fun compressor => answering (compressor.compress coders raw place)
  | .uncompress name stored place =>
    session.onFlat name fun compressor => answering (compressor.uncompress coders stored place)
  | .compressSamples name samples offsets =>
    session.onDeep name fun compressor =>
      answering (compressor.compress coders schedule samples offsets)
  | .uncompressSamples name stored offsets =>
    session.onDeep name fun compressor =>
      answering (compressor.uncompress coders schedule stored offsets)
  | .compressTable name offsets =>
    session.onDeep name fun compressor => answering (compressor.compressTable coders offsets)
  | .uncompressTable name stored pixels =>
    session.onDeep name fun compressor =>
      let (outcome, compressor) := compressor.uncompressTable coders stored pixels
      (outcome.map .offsets, compressor)

end Session

end PixelBlocks
