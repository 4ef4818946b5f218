import BuildTree.Text.Utf8

/-!
# Lines of a byte stream

The output of a build need not be valid UTF-8.  It is split at line feeds first, and each
line is decoded lossily on its own.  A line feed ends a line, so nothing follows the last
one unless there are bytes after it.
-/

namespace BuildTree.Line

def lineFeed : UInt8 := 10

/-- The chunks of some bytes, each without the line feed that ends it. -/
def chunks (bytes : List UInt8) : List (List UInt8) :=
  let parts := bytes.splitOn lineFeed
  if parts.getLast? = some [] then parts.dropLast else parts

def ofBytes (bytes : List UInt8) : List String :=
  (chunks bytes).map fun c => String.ofList (Text.decodeLossy c)

end BuildTree.Line
