/-!
# Names

Nodes, springs and quantities are numbered. A caller asks for one by a `Key`, which may also name
nothing.
-/

namespace Linkage

abbrev Id := Int

/-- What a caller asks by: a number, or nothing, which no object answers to. -/
abbrev Key := Option Id

end Linkage
