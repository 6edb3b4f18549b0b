import PrivatePresentation.Groth16.Prove
import PrivatePresentation.Hash.Sha256

/-!
The secrets of a setup and of a proof, drawn from a seed. From a seed that nobody knows nobody can
tell them.
-/

namespace PrivatePresentation.Groth16

/-- A residue drawn from a seed, one for each index. -/
def draw (seed : Bytes) (index : UInt8) : Scalar :=
  .ofNat (Sha256.toNumber (Sha256.hash (seed ++ [index])))

/-- The secrets of a setup. -/
def Trapdoor.ofSeed (seed : Bytes) : Trapdoor :=
  ⟨draw seed 0, draw seed 1, draw seed 2, draw seed 3, draw seed 4⟩

/-- The secrets of a proof. -/
def Blinding.ofSeed (seed : Bytes) : Blinding := ⟨draw seed 5, draw seed 6⟩

end PrivatePresentation.Groth16
