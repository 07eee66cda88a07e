import BucketQuery.Error
import BucketQuery.Settings.Wire
import BucketQuery.Toml.Reading

/-!
Settings from a TOML text. Whether the text is not TOML or its values do not suit, it cannot be
parsed as settings. -/
namespace BucketQuery.Settings

def ofText (text : String) : Result Settings :=
  match (Toml.document? text).map (Settings.decode .toml) with
  | some (.ok s) => .ok s
  | _ => .error (.config .unparsable)

end BucketQuery.Settings
