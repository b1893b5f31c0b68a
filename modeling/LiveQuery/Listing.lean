import LiveQuery.Colour
import LiveQuery.Endpoint
import LiveQuery.Table

/-!
# Listings of endpoints

The endpoints with their names, as a table or as a JSON value.
-/

namespace LiveQuery

/-- A row of a listing. -/
structure ListingRow where
  name : String
  method : Method
  path : String
  deriving DecidableEq, Repr

namespace ListingRow

/-- The row of a name. -/
def ofName (n : EndpointName) : ListingRow := ⟨n.text, n.endpoint.method, n.endpoint.path⟩

/-- The row as a value. -/
def toJson (r : ListingRow) : Json :=
  .obj [("name", .string r.name), ("method", .string r.method.text), ("url", .string r.path)]

/-- The colour of a method. -/
def colour : Method → Colour
  | .get => .green
  | .post => .cyan

/-- The cells of the row. -/
def cells (coloured : Bool) (r : ListingRow) : List String :=
  [r.name, (colour r.method).paint coloured r.method.text, r.path]

end ListingRow

/-- A listing: rows in order. -/
abbrev Listing := List ListingRow

namespace Listing

/-- The listing of every endpoint that has a name. -/
def all : Listing := EndpointName.all.map ListingRow.ofName

/-- The listing as a JSON text. -/
def jsonText (l : Listing) : String :=
  (Json.object [("endpoints", .array (l.map ListingRow.toJson))]).compact

/-- The listing as a table. -/
def table (coloured : Bool) (l : Listing) : Table :=
  ⟨["Name", "Method", "Path"], l.map (ListingRow.cells coloured)⟩

/-- The listing as it is printed. -/
def render (json coloured : Bool) (l : Listing) : String :=
  if json then l.jsonText else (l.table coloured).render

end Listing
end LiveQuery
