import Interchange.Version.Active
import Interchange.Wire.Schedule

/-!
# JSON forms of versions

A tag is a plain string; the bounds of a window and the windows themselves may be left out.
-/

namespace Interchange

open Json

def VersionTag.toJson (t : VersionTag) : Value := .string t.text

def VersionTag.ofJson : Decoder VersionTag := fun d => VersionTag.mk <$> decodeString d

def Window.toJson (w : Window) : Value :=
  .object [("from", .nullable DateTime.toJson w.opens), ("to", .nullable DateTime.toJson w.closes)]

def Window.fields : Fields Window :=
  Window.mk <$> optional "from" (decodeNullable DateTime.ofJson) none
    <*> optional "to" (decodeNullable DateTime.ofJson) none

def Window.ofJson : Decoder Window := Window.fields.decode

def Versioned.toJson (f : α → Value) (e : Versioned α) : Value :=
  .object [("version", e.tag.toJson), ("validity", .list Window.toJson e.validity),
    ("value", f e.value)]

def Versioned.fields (f : Decoder α) : Fields (Versioned α) :=
  Versioned.mk <$> required "version" VersionTag.ofJson
    <*> optional "validity" (decodeList Window.ofJson) []
    <*> required "value" f

def Versioned.ofJson (f : Decoder α) : Decoder (Versioned α) := (Versioned.fields f).decode

end Interchange
