import LineTokens.Scanner
import LineTokens.Input.Stream
import LineTokens.Main
import LineTokens.Proofs.Recognition
import LineTokens.Proofs.Splitting
import LineTokens.Proofs.LastDelimiter
import LineTokens.Proofs.History
import LineTokens.Proofs.Conservation
import LineTokens.Proofs.Rendering
import LineTokens.Proofs.Outcomes
import LineTokens.Proofs.HelpFlag
import LineTokens.Proofs.Decoding
import LineTokens.Proofs.StreamLines
import LineTokens.Proofs.FirstLine
import LineTokens.Proofs.Continuation
import LineTokens.Proofs.Concatenation
import LineTokens.Proofs.RepeatedRuns
import LineTokens.Proofs.Spelling
import LineTokens.Proofs.Substitution
import LineTokens.Proofs.EncodedLines
import LineTokens.Proofs.WideLines
import LineTokens.Proofs.OptionOrder
import LineTokens.Proofs.TokenLines
import LineTokens.Proofs.JsonReport
import LineTokens.Proofs.ResultText
import LineTokens.Proofs.Reversal
import LineTokens.Proofs.WholeUnits
import LineTokens.Proofs.DemoEntries
import LineTokens.Proofs.EchoedLines
