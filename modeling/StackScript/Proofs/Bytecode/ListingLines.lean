import StackScript.Proofs.Bytecode.ListingText
import StackScript.Proofs.Bytecode.Offsets

/-! The lines of listings. Every instruction of a program has a line of its own, which is found
by the number of its code and its offset, and on which the text shows it.
-/

namespace StackScript

-----------------------------------------------------------------------------------------
-- Pieces of code
-----------------------------------------------------------------------------------------

namespace Program

variable {program : Program}

end Program

namespace Listing

variable {strings : Array String} {program : Program} {listing : Listing} {id offset : Nat}
  {code : Array UInt8} {lines : List ListingLine}

end Listing

end StackScript
