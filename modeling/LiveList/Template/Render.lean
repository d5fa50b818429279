import LiveList.Document.Graft
import LiveList.Template.Evaluation

namespace LiveList

open Json (Value)
open Template (Sprout Setting)

namespace Document

def hang (d : Document) : Option NodeId → List NodeId → Document × List NodeId
  | some parent, ids => (ids.foldl (fun d id => d.appendChild parent id) d, [])
  | none, ids => (d, ids)

mutual

def plant (d : Document) (parent : Option NodeId) : Sprout → Document × List NodeId
  | .text content =>
    let (d, id) := d.createText content
    d.hang parent [id]
  | .comment body =>
    let (d, id) := d.createComment body
    d.hang parent [id]
  | .fragment markup =>
    let (d, ids) := d.parseFragment markup
    d.hang parent ids
  | .element tag attributes children =>
    let (d, id) := d.create (.element tag attributes)
    let (d, roots) := d.hang parent [id]
    ((plantAll d (some id) children).1, roots)

def plantAll (d : Document) (parent : Option NodeId) : List Sprout → Document × List NodeId
  | [] => (d, [])
  | sprout :: rest =>
    let (d, roots) := plant d parent sprout
    let (d, more) := plantAll d parent rest
    (d, roots ++ more)

end

def applyStep (step : Template.Directive.Step) (record : Value) :
    List NodeId → Document → Document × Option TemplateError
  | [], d => (d, none)
  | id :: rest, d =>
    match step record (d.attributes id) with
    | (changed, some failure) => (d.modifyAttributes id fun _ => changed, some failure)
    | (changed, none) => applyStep step record rest (d.modifyAttributes id fun _ => changed)

def applySteps (record : Value) (elements : List NodeId) :
    List Template.Directive.Step → Document → Document × Option TemplateError
  | [], d => (d, none)
  | step :: rest, d =>
    match applyStep step record elements d with
    | (d, some failure) => (d, some failure)
    | (d, none) => applySteps record elements rest d

/-- Applies all directives to the elements below some roots. After a failure the elements keep what
had been changed. -/
def applyDirectives (d : Document) (roots : List NodeId) (record : Value) :
    Document × Option TemplateError :=
  d.applySteps record ((roots.flatMap d.subtree).filter d.isElement) Template.Directive.steps

end Document

namespace Template

def renderInto (template : Template) (setting : Setting) (record : Value) (d : Document) :
    Document × Except TemplateError (List NodeId) :=
  let (sprouts, failure) := template.sprouts setting record
  let (d, roots) := d.plantAll none sprouts
  match failure with
  | some failure => (d.removeNodes roots, .error failure)
  | none =>
    match d.applyDirectives roots record with
    | (d, some failure) => (d.removeNodes roots, .error failure)
    | (d, none) => (d, .ok roots)

def render (template : Template) (setting : Setting) (record : Value) :
    Except TemplateError String :=
  let (d, roots) := template.renderInto setting record Document.empty
  roots.map fun roots => String.join (roots.map d.outerHtml)

end Template

end LiveList
