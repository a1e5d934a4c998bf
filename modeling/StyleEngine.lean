import StyleEngine.Cascade.Trace
import StyleEngine.Dom.StyleBlock
import StyleEngine.Main
import StyleEngine.Proofs.Cascade.Winner
import StyleEngine.Proofs.Css.Acceptance
import StyleEngine.Proofs.Css.EarliestFault
import StyleEngine.Proofs.Css.EndOfText
import StyleEngine.Proofs.Css.Lossless
import StyleEngine.Proofs.Cascade.Noninterference
import StyleEngine.Proofs.Cascade.Mirror
import StyleEngine.Proofs.Cascade.Exchange
import StyleEngine.Proofs.Cascade.Tracing
import StyleEngine.Proofs.Cascade.Warnings
import StyleEngine.Proofs.Cascade.WarningHistory
import StyleEngine.Proofs.Cascade.DisplayResolution
import StyleEngine.Proofs.Css.Cutting
import StyleEngine.Proofs.Css.Joining
import StyleEngine.Proofs.Css.Lookahead
import StyleEngine.Proofs.Css.Transparency
import StyleEngine.Proofs.Number.ReadBack
import StyleEngine.Proofs.Text.Case
import StyleEngine.Proofs.Css.HexColor
import StyleEngine.Proofs.Css.ColorForms
import StyleEngine.Proofs.Css.LetterCase
import StyleEngine.Proofs.Css.WellFormed
import StyleEngine.Proofs.Css.Printing
import StyleEngine.Proofs.Css.RoundTrip
import StyleEngine.Proofs.Data.Enumeration
import StyleEngine.Proofs.Json.RoundTrip
import StyleEngine.Proofs.Dom.SaveLoad
import StyleEngine.Proofs.Dom.DocumentOrder
import StyleEngine.Proofs.Dom.FirstDefect
import StyleEngine.Proofs.Dom.StyleText
import StyleEngine.Proofs.Dom.StyleBlocks
import StyleEngine.Proofs.Cli.StyleWarnings
import StyleEngine.Css.LineTable
import StyleEngine.Proofs.Css.Places
import StyleEngine.Proofs.Css.MaximalMunch
import StyleEngine.Proofs.Css.NumericTokens
import StyleEngine.Proofs.Css.Respacing
import StyleEngine.Proofs.Css.Rereading
import StyleEngine.Proofs.Cascade.ClassMatching
import StyleEngine.Proofs.Css.OneLine
import StyleEngine.Proofs.Cli.OutlineOrder
import StyleEngine.Proofs.Cli.Reports
import StyleEngine.Proofs.Cli.AllOrNothing
