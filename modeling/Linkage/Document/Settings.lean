import Linkage.Document.Reading
import Linkage.Scalar.Binary
import Linkage.Settings

/-!
# Settings from a text
-/

namespace Linkage.Settings

/-- Settings fit for use, from the text of a settings document as `Document.read` reads it. -/
def ofText? (text : Option String) : Except (Failure Float) (Settings Float) :=
  ofText Document.read text

end Linkage.Settings
