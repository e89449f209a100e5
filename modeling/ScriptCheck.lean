import ScriptCheck.Host.Table
import ScriptCheck.Proofs.Annotation.Calls
import ScriptCheck.Proofs.Annotation.Faults
import ScriptCheck.Proofs.Annotation.Independence
import ScriptCheck.Proofs.Annotation.Policy
import ScriptCheck.Proofs.Annotation.SelfReference
import ScriptCheck.Proofs.Binding.BackReferences
import ScriptCheck.Proofs.Binding.Conservation
import ScriptCheck.Proofs.Diagnostic.Forwarding
import ScriptCheck.Proofs.Message.Substitution
import ScriptCheck.Proofs.Script.FullyQualified
import ScriptCheck.Proofs.Script.ImportRepairs
import ScriptCheck.Proofs.Script.LineageOrder
import ScriptCheck.Proofs.Script.LocalRenaming
import ScriptCheck.Proofs.Script.NearestOverload
import ScriptCheck.Proofs.Script.NestedTypes
import ScriptCheck.Proofs.Script.NewClasses
import ScriptCheck.Proofs.Script.OfferedImports
import ScriptCheck.Proofs.Script.PrivateAccess
import ScriptCheck.Proofs.Script.Registration
import ScriptCheck.Proofs.Script.ScriptMethods
import ScriptCheck.Proofs.Script.StaticImports
import ScriptCheck.Proofs.Script.Termination
import ScriptCheck.Proofs.Script.TypePosition
import ScriptCheck.Proofs.Symbol.Indexes
import ScriptCheck.Proofs.Syntax.Additions
import ScriptCheck.Proofs.Syntax.Enclosing
import ScriptCheck.Proofs.Syntax.ImportLists
import ScriptCheck.Proofs.Syntax.StackWalk
import ScriptCheck.Proofs.Types.Applicability
import ScriptCheck.Proofs.Types.Boxing
import ScriptCheck.Proofs.Types.LearnedSupertypes
import ScriptCheck.Proofs.Types.SearchLimit
import ScriptCheck.Proofs.Types.TypeTexts
import ScriptCheck.Proofs.Types.UnknownClasses
import ScriptCheck.Proofs.Typing.Termination
import ScriptCheck.Session
import ScriptCheck.Symbol.Names
import ScriptCheck.Syntax.Names
import ScriptCheck.Types.Written
