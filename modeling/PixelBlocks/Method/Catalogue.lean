import PixelBlocks.Fault

/-!
# Catalogue of compression methods

Methods are found by number or by name. Names ignore the case of ASCII letters,
and `no` is another word for `none`. Numbers that are not in the catalogue are
neither lossy nor fit for deep data.
-/

namespace PixelBlocks.Catalogue

/-- All entries in the order of their numbers. -/
def entries : List CatalogueEntry :=
  Method.all.map Method.entry

/-- The entry with a number. -/
def byNumber? (number : UInt8) : Option CatalogueEntry :=
  entries[number.toNat]?

/-- Whether two texts differ at most in the case of ASCII letters. -/
def sameIgnoringCase (first second : String) : Bool :=
  first.toList.map Char.toLower == second.toList.map Char.toLower

/-- Further names that are accepted, with the number they stand for. -/
def aliases : List (String × UInt8) := [("no", 0)]

/-- The entry with a name, in any case. -/
def byName? (name : String) : Option CatalogueEntry :=
  match entries.find? fun entry => sameIgnoringCase entry.name name with
  | some entry => some entry
  | none =>
    match aliases.find? fun alternative => sameIgnoringCase alternative.1 name with
    | some alternative => byNumber? alternative.2
    | none => none

/-- All names in the order of their numbers. -/
def names (separator : String) : String :=
  separator.intercalate (entries.map CatalogueEntry.name)

/-- How many scan lines form a block under a number. -/
def scanLinesOf? (number : UInt8) : Option Nat :=
  (byNumber? number).map CatalogueEntry.scanLines

/-- Whether the method under a number may lose information. -/
def isLossy (number : UInt8) : Bool :=
  (byNumber? number).elim false CatalogueEntry.lossy

/-- Whether the method under a number may hold deep data. -/
def supportsDeep (number : UInt8) : Bool :=
  (byNumber? number).elim false CatalogueEntry.deep

end PixelBlocks.Catalogue

namespace PixelBlocks.Method

/-- The method with a number. -/
def ofNumber (number : UInt8) : Outcome Method :=
  match all[number.toNat]? with
  | some method => .ok method
  | none => .error (.configuration (.unknownMethodNumber number))

/-- The method with a name, in any case. -/
def ofName (name : String) : Outcome Method :=
  match Catalogue.byName? name with
  | some entry => ofNumber entry.number
  | none => .error (.configuration (.unknownMethodName name (Catalogue.names ", ")))

end PixelBlocks.Method
