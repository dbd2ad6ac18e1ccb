import RawVideo.Error

/-!
# Formats by name

The lookup that complains about names it does not know.
-/

namespace RawVideo

def Format.ofName (name : String) : Except Error Format :=
  match ofName? name with
  | some format => .ok format
  | none => .error (.unknownFormat name)

end RawVideo
