/-! The statements that a relational store sends to its database. -/

namespace Workflow.Statement

def lines (parts : List String) : String :=
  String.join (parts.map ("\n        " ++ ·))

def createSchema : List String :=
  ["CREATE SCHEMA IF NOT EXISTS taskflow",
    lines ["CREATE TABLE IF NOT EXISTS taskflow.definition (",
      "    id          UUID PRIMARY KEY,",
      "    name        TEXT NOT NULL,",
      "    version     TEXT NOT NULL,",
      "    status      TEXT NOT NULL,",
      "    body        JSONB NOT NULL,",
      "    created_at  TIMESTAMPTZ NOT NULL DEFAULT now(),",
      "    UNIQUE (name, version)",
      ")"],
    lines ["CREATE TABLE IF NOT EXISTS taskflow.instance (",
      "    id                  UUID PRIMARY KEY,",
      "    definition_id       UUID NOT NULL REFERENCES taskflow.definition (id),",
      "    definition_version  TEXT NOT NULL,",
      "    status              TEXT NOT NULL,",
      "    data                JSONB NOT NULL,",
      "    pending_steps       JSONB NOT NULL,",
      "    started_by          TEXT NOT NULL,",
      "    started_at          TIMESTAMPTZ NOT NULL,",
      "    completed_at        TIMESTAMPTZ",
      ")"],
    lines ["CREATE TABLE IF NOT EXISTS taskflow.task (",
      "    seq            BIGSERIAL,",
      "    id             UUID PRIMARY KEY,",
      "    instance_id    UUID NOT NULL REFERENCES taskflow.instance (id),",
      "    step_id        TEXT NOT NULL,",
      "    status         TEXT NOT NULL,",
      "    assignee       TEXT,",
      "    assigned_role  TEXT,",
      "    priority       TEXT NOT NULL,",
      "    due_at         TIMESTAMPTZ,",
      "    data           JSONB NOT NULL,",
      "    completed_by   TEXT,",
      "    completed_at   TIMESTAMPTZ,",
      "    created_at     TIMESTAMPTZ NOT NULL",
      ")"],
    "CREATE INDEX IF NOT EXISTS task_instance_status_idx ON taskflow.task (instance_id, status)",
    "CREATE INDEX IF NOT EXISTS task_assignee_status_idx ON taskflow.task (assignee, status)"]

def upsertDefinition : String :=
  lines ["INSERT INTO taskflow.definition (id, name, version, status, body, created_at)",
    "VALUES ($1, $2, $3, $4, $5, $6)",
    "ON CONFLICT (id) DO UPDATE",
    "SET name = EXCLUDED.name,",
    "    version = EXCLUDED.version,",
    "    status = EXCLUDED.status,",
    "    body = EXCLUDED.body"]

def selectDefinition : String :=
  lines ["SELECT id, name, version, status, body, created_at",
    "FROM taskflow.definition",
    "WHERE id = $1"]

def selectDefinitionByName : String :=
  lines ["SELECT id, name, version, status, body, created_at",
    "FROM taskflow.definition",
    "WHERE name = $1 AND version = $2"]

def updateDefinitionStatus : String :=
  lines ["UPDATE taskflow.definition",
    "SET status = $3",
    "WHERE id = $1 AND status = $2"]

def upsertInstance : String :=
  lines ["INSERT INTO taskflow.instance",
    "    (id, definition_id, definition_version, status, data, pending_steps,",
    "     started_by, started_at, completed_at)",
    "VALUES ($1, $2, $3, $4, $5, $6, $7, $8, $9)",
    "ON CONFLICT (id) DO UPDATE",
    "SET status = EXCLUDED.status,",
    "    data = EXCLUDED.data,",
    "    pending_steps = EXCLUDED.pending_steps,",
    "    completed_at = EXCLUDED.completed_at"]

def selectInstance : String :=
  lines ["SELECT id, definition_id, definition_version, status, data, pending_steps,",
    "       started_by, started_at, completed_at",
    "FROM taskflow.instance",
    "WHERE id = $1"]

def upsertTask : String :=
  lines ["INSERT INTO taskflow.task",
    "    (id, instance_id, step_id, status, assignee, assigned_role, priority,",
    "     due_at, data, completed_by, completed_at, created_at)",
    "VALUES ($1, $2, $3, $4, $5, $6, $7, $8, $9, $10, $11, $12)",
    "ON CONFLICT (id) DO UPDATE",
    "SET status = EXCLUDED.status,",
    "    data = EXCLUDED.data,",
    "    completed_by = EXCLUDED.completed_by,",
    "    completed_at = EXCLUDED.completed_at"]

def selectTasks (condition : String) : String :=
  "SELECT id, instance_id, step_id, status, assignee, assigned_role, priority, due_at, data, " ++
    "completed_by, completed_at, created_at FROM taskflow.task " ++ condition

def selectTask : String :=
  selectTasks "WHERE id = $1"

def selectTasksOfInstance : String :=
  selectTasks "WHERE instance_id = $1 AND ($2::text IS NULL OR status = $2) ORDER BY seq"

def selectAssignedTasks : String :=
  selectTasks ("WHERE assignee = $1 AND ($2::text IS NULL OR status = $2) " ++
    "AND ($3::uuid IS NULL OR instance_id = $3) ORDER BY seq LIMIT $4")

def beginTransaction : String := "BEGIN"

def commitTransaction : String := "COMMIT"

end Workflow.Statement
