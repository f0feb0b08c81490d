import ExprLang.Eval.Lemmas
import ExprLang.Main
import ExprLang.Proofs.Evaluation.BigStep
import ExprLang.Proofs.Evaluation.CallDepth
import ExprLang.Proofs.Grammar.Completeness
import ExprLang.Proofs.TwoLevel.Agreement
import ExprLang.Session.Step
import ExprLang.Proofs.Evaluation.Effect
import ExprLang.Proofs.Evaluation.Reach
import ExprLang.Proofs.Grammar.Completion
import ExprLang.Proofs.Lexing.Basic
import ExprLang.Proofs.Lexing.LongestMatch
import ExprLang.Proofs.Evaluation.Counter
import ExprLang.Proofs.Incremental.Session
import ExprLang.Proofs.Identity.Provenance
import ExprLang.Proofs.Identity.Repeat
import ExprLang.Proofs.Scoping.History
import ExprLang.Proofs.Scoping.Order
import ExprLang.Proofs.Scoping.StaticCheck
import ExprLang.Proofs.Spelling.Lines
import ExprLang.Proofs.Spelling.Renaming
import ExprLang.Proofs.Termination.Machine
import ExprLang.Proofs.Identity.Lockstep
import ExprLang.Proofs.Scoping.Extension
import ExprLang.Proofs.Printing.Basic
import ExprLang.Proofs.Printing.Grammar
import ExprLang.Proofs.Printing.RoundTrip
import ExprLang.Proofs.Evaluation.Formula
import ExprLang.Proofs.Evaluation.WrittenVector
import ExprLang.Proofs.Lexing.Lines
import ExprLang.Proofs.Lexing.Seam
import ExprLang.Proofs.Grammar.Concatenation
import ExprLang.Proofs.Grammar.Header
import ExprLang.Proofs.Printing.Numeral
import ExprLang.Proofs.Printing.Vector
import ExprLang.Proofs.Scoping.ByteOrder
import ExprLang.Proofs.Scoping.Listing
import ExprLang.Proofs.Walk.Agreement
import ExprLang.Proofs.Walk.Basic
import ExprLang.Proofs.Walk.EndMarker
import ExprLang.Proofs.Walk.LookAhead
import ExprLang.Proofs.Walk.Program
import ExprLang.Proofs.Walk.Progress
import ExprLang.Proofs.Walk.Rounds
