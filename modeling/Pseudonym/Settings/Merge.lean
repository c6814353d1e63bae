import Pseudonym.Document

namespace Pseudonym.Settings

open Document

mutual

/-- Lays a document over an entry of the mapping of an origin. -/
def lay (settings : Document) (origin : Origin) (key : Key) : Document → Document
  | .map upper entries =>
      match (settings.entries? origin).bind (Value.find? · key) with
      | some (.map lower _) => layEntries settings lower entries
      | _ => write origin key (.map upper entries) settings
  | d => write origin key d settings

/-- Lays entries over the mapping of an origin. Entries that are there keep their places, new ones
follow. -/
def layEntries (settings : Document) (origin : Origin) : List (Key × Document) → Document
  | [] => settings
  | (key, d) :: rest => layEntries (lay settings origin key d) origin rest

end

end Pseudonym.Settings
