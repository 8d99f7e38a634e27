import DelegateSafety.Main
import DelegateSafety.Files.Tree
import DelegateSafety.Sample.Units
import DelegateSafety.Proofs.Lockstep
import DelegateSafety.Proofs.Trace
import DelegateSafety.Proofs.LastChange
import DelegateSafety.Proofs.Enumeration
import DelegateSafety.Proofs.Coverage
import DelegateSafety.Proofs.Teardown
import DelegateSafety.Proofs.Accounting
import DelegateSafety.Proofs.Filing
import DelegateSafety.Proofs.Budget
import DelegateSafety.Proofs.Heuristics
import DelegateSafety.Proofs.DirectWrite
import DelegateSafety.Proofs.NullRelease
import DelegateSafety.Proofs.Unrolling
import DelegateSafety.Proofs.Accessor
import DelegateSafety.Proofs.DeclarationOrder
import DelegateSafety.Proofs.Coalescing
import DelegateSafety.Proofs.PseudoInit
import DelegateSafety.Proofs.Decoding
import DelegateSafety.Proofs.FactContent
import DelegateSafety.Proofs.GuardMeaning
import DelegateSafety.Proofs.Negation
import DelegateSafety.Proofs.Merging
import DelegateSafety.Proofs.Inheritance
import DelegateSafety.Proofs.Discovery
import DelegateSafety.Proofs.Remedy
import DelegateSafety.Proofs.Opening
import DelegateSafety.Proofs.Postorder
import DelegateSafety.Proofs.Places
import DelegateSafety.Proofs.LoopBound
import DelegateSafety.Proofs.Isolation
import DelegateSafety.Proofs.Provenance
import DelegateSafety.Proofs.Extension
import DelegateSafety.Proofs.Linting
import DelegateSafety.Proofs.Parentheses
import DelegateSafety.Proofs.StaticLocals
import DelegateSafety.Proofs.Holdings
