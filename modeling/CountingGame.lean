import CountingGame.Fault
import CountingGame.Decimal
import CountingGame.Rule
import CountingGame.Call
import CountingGame.Span
import CountingGame.Entry
import CountingGame.Pass
import CountingGame.Cursor
import CountingGame.Sink
import CountingGame.Recital
import CountingGame.Launch
import CountingGame.Slots
import CountingGame.Query
import CountingGame.Session
import CountingGame.Main
import CountingGame.Proofs.Numbering
import CountingGame.Proofs.Labels
import CountingGame.Proofs.StepEffects
import CountingGame.Proofs.CursorPlace
import CountingGame.Proofs.LineByLine
import CountingGame.Proofs.SinkContent
import CountingGame.Proofs.Digits
import CountingGame.Proofs.LabelGrammar
import CountingGame.Proofs.LineCut
import CountingGame.Proofs.Decoding
import CountingGame.Proofs.Suspension
import CountingGame.Proofs.Ladder
import CountingGame.Proofs.Frontier
import CountingGame.Proofs.Telling
import CountingGame.Proofs.Launches
import CountingGame.Proofs.Mirror
import CountingGame.Proofs.Splitting
import CountingGame.Proofs.Recovery
import CountingGame.Proofs.Tally
import CountingGame.Proofs.Shift
import CountingGame.Proofs.Measure
