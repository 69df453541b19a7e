import AssetLift.App
import AssetLift.TypeScript.Parser
import AssetLift.Yaml.Document

/-!
# The library's own readers

A run takes its readers from around it (`App.Host`). The library has one of each kind.

* `App.Host.standard` — a run with these.
-/

namespace AssetLift

namespace App

/-- The library's own readers, and the room that a run usually has. -/
def Host.standard : Host :=
  { read := Yaml.Document.read, grammar := TypeScript.parse, room := 900, levels := 900 }

end App

end AssetLift
