import ClassLang.Files.System
import ClassLang.Main
import ClassLang.Proofs.Accesses
import ClassLang.Proofs.Alternation
import ClassLang.Proofs.BuildOutcome
import ClassLang.Proofs.CallingConvention
import ClassLang.Proofs.DirectorySources
import ClassLang.Proofs.Emission
import ClassLang.Proofs.FailedRun
import ClassLang.Proofs.FileChanges
import ClassLang.Proofs.FirstEntry
import ClassLang.Proofs.FirstViolation
import ClassLang.Proofs.FurtherSignatures
import ClassLang.Proofs.Independence
import ClassLang.Proofs.Jumps
import ClassLang.Proofs.Layout
import ClassLang.Proofs.Numbering
import ClassLang.Proofs.ParserProgress
import ClassLang.Proofs.Quotes
import ClassLang.Proofs.RightGrouping
import ClassLang.Proofs.RoundTrip
import ClassLang.Proofs.Scanning
import ClassLang.Proofs.SeparateCompilation
import ClassLang.Proofs.StackDiscipline
import ClassLang.Proofs.ViablePrefix
import ClassLang.Proofs.VmText
import ClassLang.Proofs.WrittenFiles
import ClassLang.Text.Cursor
import ClassLang.Tree.Printer
