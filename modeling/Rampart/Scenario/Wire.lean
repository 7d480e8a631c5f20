import Rampart.Json.Encode
import Rampart.Scenario.Document

/-!
# The JSON form of scenario files
-/

namespace Rampart

open Json (member)

instance : Encode ScenarioFile where
  encode f := .obj [member "file_name" f.name, member "contents" f.contents]

end Rampart
