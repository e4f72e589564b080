import Questionnaire.Files.Tree
import Questionnaire.Json.Reader
import Questionnaire.Main
import Questionnaire.Proofs.CollisionWarnings
import Questionnaire.Proofs.MarkedConditions
import Questionnaire.Survey.Writing
import Questionnaire.Proofs.Readings
import Questionnaire.Proofs.Separators
import Questionnaire.Proofs.Conjunctions
import Questionnaire.Proofs.QuotedWords
import Questionnaire.Proofs.ElementNames
import Questionnaire.Proofs.Deletion
import Questionnaire.Proofs.Tags
import Questionnaire.Proofs.Cleaning
import Questionnaire.Proofs.ValidSurveys
import Questionnaire.Proofs.FormTexts
import Questionnaire.Proofs.WrittenScalars
import Questionnaire.Proofs.WrittenValues
import Questionnaire.Proofs.Layout
import Questionnaire.Proofs.DocumentTexts
import Questionnaire.Proofs.LanguagePicker
import Questionnaire.Proofs.ConditionChannel
import Questionnaire.Proofs.ReadSurveys
import Questionnaire.Proofs.WrittenSurveys
import Questionnaire.Proofs.Substitution
import Questionnaire.Proofs.Replacement
import Questionnaire.Proofs.RespelledOperators
import Questionnaire.Proofs.AnswerCodes
import Questionnaire.Proofs.Reordering
import Questionnaire.Proofs.RepeatedCollisions
import Questionnaire.Proofs.DistinctKeys
import Questionnaire.Proofs.Survivors
import Questionnaire.Proofs.StableOrder
import Questionnaire.Proofs.PositionalIds
import Questionnaire.Proofs.ScriptBlocks
import Questionnaire.Proofs.CatalogLookup
import Questionnaire.Proofs.CanonicalSegments
